import Mathlib.Algebra.Ring.Nat
import Mathlib.Tactic.ByContra
import RowProjection.Proofs.Outcome
import RowProjection.Wire.Decimal

/-! Reading back what was written. A reader reads a value off some bytes when it does so in front
of any others, and leaves those; it refuses bytes when it fails in front of any others. Both carry
over from the parts of a reader to the whole. A codec measures what it writes. -/

namespace RowProjection.Wire

variable {α β : Type}

theorem takeBytes?_append (bytes rest : List UInt8) :
    takeBytes? bytes.length (bytes ++ rest) = some (bytes, rest) := by
  simp [takeBytes?]

namespace ByteReader

variable {m : Type → Type} [Monad m]

/-- The reader answers a value on these bytes and leaves whatever follows them. -/
def Reads (reader : ByteReader m α) (bytes : List UInt8) (value : α) : Prop :=
  ∀ rest, reader.run (bytes ++ rest) = pure (value, rest)

theorem Reads.pure (value : α) : Reads (pure value : ByteReader m α) [] value :=
  fun _ => rfl

variable [LawfulMonad m]

theorem run_bind_of {reader : ByteReader m α} {next : α → ByteReader m β}
    {bytes rest : List UInt8} {value : α} (first : reader.run bytes = pure (value, rest)) :
    (reader >>= next).run bytes = (next value).run rest := by
  rw [StateT.run_bind, first, pure_bind]

theorem Reads.bind {reader : ByteReader m α} {next : α → ByteReader m β} {front back : List UInt8}
    {middle : α} {value : β} (first : reader.Reads front middle)
    (second : (next middle).Reads back value) : Reads (reader >>= next) (front ++ back) value := by
  intro rest
  rw [List.append_assoc, run_bind_of (first _)]
  exact second rest

theorem Reads.map {reader : ByteReader m α} {bytes : List UInt8} {value : α} (function : α → β)
    (first : reader.Reads bytes value) : Reads (function <$> reader) bytes (function value) := by
  intro rest
  rw [StateT.run_map, first, map_pure]

/-- The number of a word is read off the bytes that are taken for it. -/
theorem Reads.word {take : ByteReader m (List UInt8)} {width number : Nat}
    (fits : number < 256 ^ width)
    (taken : take.Reads (littleEndian width number) (littleEndian width number)) :
    Reads (ofLittleEndian <$> take) (littleEndian width number) number := by
  have read := taken.map ofLittleEndian
  rwa [ofLittleEndian_littleEndian, Nat.pow_eq, Nat.mod_eq_of_lt fits] at read

end ByteReader

namespace Reader

/-- The first part that fails fails the whole. -/
theorem run_bind_error {reader : Reader α} {next : α → Reader β} {bytes : List UInt8}
    {fault : Fault} (failed : reader.run bytes = .error fault) :
    (reader >>= next).run bytes = .error fault := by
  rw [StateT.run_bind, failed]
  rfl

theorem run_map_error {reader : Reader α} {bytes : List UInt8} {fault : Fault} (function : α → β)
    (failed : reader.run bytes = .error fault) :
    (function <$> reader).run bytes = .error fault := by
  rw [StateT.run_map, failed]
  rfl

/-- The reader fails on these bytes, whatever follows them. -/
def Refuses (reader : Reader α) (bytes : List UInt8) : Prop :=
  ∀ rest, ∃ fault, reader.run (bytes ++ rest) = .error fault

theorem Refuses.bind {reader : Reader α} {next : α → Reader β} {front : List UInt8}
    (first : reader.Refuses front) (back : List UInt8) :
    Refuses (reader >>= next) (front ++ back) := by
  intro rest
  obtain ⟨fault, failed⟩ := first (back ++ rest)
  rw [List.append_assoc]
  exact ⟨fault, run_bind_error failed⟩

theorem Refuses.map {reader : Reader α} {bytes : List UInt8} (function : α → β)
    (first : reader.Refuses bytes) : Refuses (function <$> reader) bytes := by
  intro rest
  obtain ⟨fault, failed⟩ := first rest
  exact ⟨fault, run_map_error function failed⟩

/-- The reader fails on these bytes for one cause, whatever follows them. -/
def FailsWith (reader : Reader α) (bytes : List UInt8) (fault : Fault) : Prop :=
  ∀ rest, reader.run (bytes ++ rest) = .error fault

theorem FailsWith.bind {reader : Reader α} {next : α → Reader β} {front : List UInt8}
    {fault : Fault} (first : reader.FailsWith front fault) (back : List UInt8) :
    FailsWith (reader >>= next) (front ++ back) fault := by
  intro rest
  rw [List.append_assoc]
  exact run_bind_error (first _)

theorem FailsWith.map {reader : Reader α} {bytes : List UInt8} {fault : Fault}
    (function : α → β) (first : reader.FailsWith bytes fault) :
    FailsWith (function <$> reader) bytes fault :=
  fun rest => run_map_error function (first rest)

/-- The reader reads a value off these bytes where it is sound, and refuses them where it is not. -/
structure Decides (reader : Reader α) (bytes : List UInt8) (value : α) (sound : Prop) : Prop where
  reads : sound → reader.Reads bytes value
  refuses : ¬ sound → reader.Refuses bytes

end Reader

namespace ByteReader

variable {reader : Reader α} {next : α → Reader β} {bytes front back : List UInt8} {middle : α}

theorem Reads.unique {first second : α} (one : reader.Reads bytes first)
    (another : reader.Reads bytes second) : first = second := by
  have same := (one []).symm.trans (another [])
  cases same
  rfl

theorem Reads.refuses_bind (first : reader.Reads front middle)
    (second : (next middle).Refuses back) : Reader.Refuses (reader >>= next) (front ++ back) := by
  intro rest
  obtain ⟨fault, failed⟩ := second rest
  refine ⟨fault, ?_⟩
  rw [List.append_assoc, run_bind_of (first _)]
  exact failed

theorem Reads.failsWith_bind {fault : Fault} (first : reader.Reads front middle)
    (second : (next middle).FailsWith back fault) :
    Reader.FailsWith (reader >>= next) (front ++ back) fault := by
  intro rest
  rw [List.append_assoc, run_bind_of (first _)]
  exact second rest

theorem Reads.decides {value : α} {sound : Prop} (reads : reader.Reads bytes value)
    (holds : sound) : reader.Decides bytes value sound :=
  ⟨fun _ => reads, fun fails => absurd holds fails⟩

/-- What is read for certain in front leaves the decision to what follows. -/
theorem Reads.decides_bind {value : β} {sound : Prop} (first : reader.Reads front middle)
    (second : (next middle).Decides back value sound) :
    Reader.Decides (reader >>= next) (front ++ back) value sound :=
  ⟨fun holds => first.bind (second.reads holds),
    fun fails => first.refuses_bind (second.refuses fails)⟩

end ByteReader

namespace Reader

/-- The reader reads a value off these bytes, or it fails for one of some causes. -/
def ReadsOrFails (reader : Reader α) (bytes : List UInt8) (value : α) (causes : Fault → Prop) :
    Prop :=
  reader.Reads bytes value ∨ ∃ fault, causes fault ∧ reader.FailsWith bytes fault

theorem ReadsOrFails.imp {reader : Reader α} {bytes : List UInt8} {value : α}
    {causes others : Fault → Prop} (first : reader.ReadsOrFails bytes value causes)
    (wider : ∀ fault, causes fault → others fault) : reader.ReadsOrFails bytes value others := by
  rcases first with reads | ⟨fault, caused, failed⟩
  · exact .inl reads
  · exact .inr ⟨fault, wider fault caused, failed⟩

theorem ReadsOrFails.map {reader : Reader α} {bytes : List UInt8} {value : α}
    {causes : Fault → Prop} (function : α → β) (first : reader.ReadsOrFails bytes value causes) :
    ReadsOrFails (function <$> reader) bytes (function value) causes := by
  rcases first with reads | ⟨fault, caused, failed⟩
  · exact .inl (reads.map function)
  · exact .inr ⟨fault, caused, failed.map function⟩

theorem ReadsOrFails.bind {reader : Reader α} {next : α → Reader β} {front back : List UInt8}
    {middle : α} {value : β} {causes : Fault → Prop}
    (first : reader.ReadsOrFails front middle causes)
    (second : (next middle).ReadsOrFails back value causes) :
    ReadsOrFails (reader >>= next) (front ++ back) value causes := by
  rcases first with reads | ⟨fault, caused, failed⟩
  · rcases second with follows | ⟨fault, caused, failed⟩
    · exact .inl (reads.bind follows)
    · exact .inr ⟨fault, caused, reads.failsWith_bind failed⟩
  · exact .inr ⟨fault, caused, failed.bind back⟩

theorem Decides.bind {reader : Reader α} {next : α → Reader β} {front back : List UInt8}
    {middle : α} {value : β} {soundFront soundBack : Prop}
    (first : reader.Decides front middle soundFront)
    (second : (next middle).Decides back value soundBack) :
    Decides (reader >>= next) (front ++ back) value (soundFront ∧ soundBack) := by
  constructor
  · rintro ⟨holdsFront, holdsBack⟩
    exact (first.reads holdsFront).bind (second.reads holdsBack)
  · intro fails
    by_cases holdsFront : soundFront
    · exact (first.reads holdsFront).refuses_bind
        (second.refuses fun holdsBack => fails ⟨holdsFront, holdsBack⟩)
    · exact (first.refuses holdsFront).bind back

theorem Decides.map {reader : Reader α} {bytes : List UInt8} {value : α} {sound : Prop}
    (function : α → β) (first : reader.Decides bytes value sound) :
    Decides (function <$> reader) bytes (function value) sound :=
  ⟨fun holds => (first.reads holds).map function, fun fails => (first.refuses fails).map function⟩

theorem Decides.congr {reader : Reader α} {bytes : List UInt8} {value : α} {sound other : Prop}
    (first : reader.Decides bytes value sound) (same : sound ↔ other) :
    reader.Decides bytes value other :=
  ⟨fun holds => first.reads (same.mpr holds), fun fails => first.refuses (mt same.mp fails)⟩

theorem decides_require {value? : Option α} {value : α} {sound : Prop} (fault : Fault)
    (found : sound → value? = some value) (missing : ¬ sound → value? = none) :
    (require value? fault).Decides [] value sound := by
  constructor
  · intro holds
    rw [found holds]
    exact .pure value
  · intro fails rest
    rw [missing fails]
    exact ⟨fault, rfl⟩

theorem Decides.reads_iff {reader : Reader α} {bytes : List UInt8} {value : α} {sound : Prop}
    (decides : reader.Decides bytes value sound) (rest : List UInt8) :
    reader.run (bytes ++ rest) = .ok (value, rest) ↔ sound := by
  constructor
  · intro read
    by_contra fails
    obtain ⟨fault, failed⟩ := decides.refuses fails rest
    rw [read] at failed
    cases failed
  · intro holds
    exact decides.reads holds rest

theorem reads_take {bytes : List UInt8} {count : Nat} (length : bytes.length = count) :
    (take count).Reads bytes bytes := by
  intro rest
  subst length
  change take bytes.length (bytes ++ rest) = _
  rw [take, takeBytes?_append]
  rfl

theorem reads_word {width number : Nat} (fits : number < 256 ^ width) :
    (word width).Reads (littleEndian width number) number :=
  (reads_take (length_littleEndian width number)).word fits

end Reader

namespace Codec

/-- The codec reads back what it writes for this value. -/
def ReadsBack (codec : Codec α) (value : α) : Prop :=
  ∀ bytes, codec.write value = .ok bytes → codec.read.Reads bytes value

theorem readsBack_ofWord {width : Nat} {toWord : α → Nat} {fromWord : Nat → α} {value : α}
    (fits : toWord value < 256 ^ width) (same : fromWord (toWord value) = value) :
    (ofWord width toWord fromWord).ReadsBack value := by
  intro bytes written
  cases written
  have read := (Reader.reads_word fits).map fromWord
  rwa [same] at read

theorem ReadsBack.via {codec : Codec β} {toOther : α → β} {fromOther : β → α} {value : α}
    (other : codec.ReadsBack (toOther value)) (same : fromOther (toOther value) = value) :
    (codec.via toOther fromOther).ReadsBack value := by
  intro bytes written
  have read := (other bytes written).map fromOther
  rwa [same] at read

theorem readsBack_uint8 (value : UInt8) : uint8.ReadsBack value :=
  readsBack_ofWord value.toNat_lt (UInt8.ofNat_toNat)

theorem readsBack_uint16 (value : UInt16) : uint16.ReadsBack value :=
  readsBack_ofWord value.toNat_lt (UInt16.ofNat_toNat)

theorem readsBack_uint32 (value : UInt32) : uint32.ReadsBack value :=
  readsBack_ofWord value.toNat_lt (UInt32.ofNat_toNat)

theorem readsBack_uint64 (value : UInt64) : uint64.ReadsBack value :=
  readsBack_ofWord value.toNat_lt (UInt64.ofNat_toNat)

/-- Two's complement reads back every integer of the lower and the upper half of the range. -/
theorem readsBack_signed {width : Nat} {number : Int} (least : -(256 ^ width : Nat) ≤ 2 * number)
    (greatest : 2 * number < (256 ^ width : Nat)) : (signed width).ReadsBack number := by
  have positive : (0 : Int) < (256 ^ width : Nat) :=
    Int.natCast_pos.mpr (Nat.pow_pos (by decide))
  have nonnegative := Int.emod_nonneg number (Int.ne_of_gt positive)
  have below := Int.emod_lt_of_pos number positive
  apply readsBack_ofWord
  · simp only [wordOfInt, Nat.pow_eq]
    omega
  · simp only [wordOfInt, intOfWord, Nat.pow_eq]
    rw [Int.toNat_of_nonneg nonnegative, Int.emod_bmod]
    exact Int.bmod_eq_of_le_mul_two (by omega) (by omega)

theorem readsBack_int8 (value : Int8) : int8.ReadsBack value :=
  (readsBack_signed (by have := value.le_toInt; omega) (by have := value.toInt_lt; omega)).via
    value.ofInt_toInt

theorem readsBack_int16 (value : Int16) : int16.ReadsBack value :=
  (readsBack_signed (by have := value.le_toInt; omega) (by have := value.toInt_lt; omega)).via
    value.ofInt_toInt

theorem readsBack_int32 (value : Int32) : int32.ReadsBack value :=
  (readsBack_signed (by have := value.le_toInt; omega) (by have := value.toInt_lt; omega)).via
    value.ofInt_toInt

theorem readsBack_int64 (value : Int64) : int64.ReadsBack value :=
  (readsBack_signed (by have := value.le_toInt; omega) (by have := value.toInt_lt; omega)).via
    value.ofInt_toInt

theorem readsBack_single (value : Number.Single) : single.ReadsBack value :=
  (readsBack_uint32 value.bits).via rfl

theorem readsBack_double (value : Number.Double) : double.ReadsBack value :=
  (readsBack_uint64 value.bits).via rfl

theorem readsBack_boolean (value : Bool) : boolean.ReadsBack value :=
  (readsBack_uint8 _).via (by cases value <;> decide)

theorem readsBack_text (value : String) : text.ReadsBack value := by
  intro bytes written
  simp only [text] at written
  split at written
  · next short =>
    cases written
    apply (Reader.reads_word (Nat.lt_of_lt_of_le short (by decide))).bind
    intro rest
    have decoded : Text.Utf8.decode (Text.Utf8.bytes value) = .ok value := by
      simp [Text.Utf8.decode, Text.Utf8.decode?_bytes]
    simp [takeBytes?, decoded]
  · cases written

/-- The tag tells whether a value stands behind it. -/
theorem readsBack_option {codec : Codec α} (content : ∀ value, codec.ReadsBack value)
    (value : Option α) : (option codec).ReadsBack value := by
  intro bytes written
  cases value with
  | none =>
    cases written
    have absent : (Reader.word 1).Reads [0] 0 := Reader.reads_word (by decide)
    exact absent.bind (.pure none)
  | some value =>
    obtain ⟨payload, encoded, rfl⟩ := Except.map_eq_ok_iff.mp written
    have present : (Reader.word 1).Reads [1] 1 := Reader.reads_word (by decide)
    exact present.bind ((content value payload encoded).map some)

/-- The size of a value is the number of bytes that are written for it. -/
def Measures (codec : Codec α) : Prop :=
  ∀ value bytes, codec.write value = .ok bytes → bytes.length = codec.size value

theorem measures_ofWord (width : Nat) (toWord : α → Nat) (fromWord : Nat → α) :
    (ofWord width toWord fromWord).Measures := by
  intro value bytes written
  cases written
  exact length_littleEndian ..

theorem Measures.via {codec : Codec β} {toOther : α → β} {fromOther : β → α}
    (other : codec.Measures) : (codec.via toOther fromOther).Measures :=
  fun value => other (toOther value)

theorem measures_signed (width : Nat) : (signed width).Measures :=
  measures_ofWord _ _ _

theorem measures_boolean : boolean.Measures :=
  (measures_ofWord _ _ _).via

theorem measures_text : text.Measures := by
  intro value bytes written
  simp only [text] at written
  split at written
  · cases written
    rw [List.length_append, length_littleEndian]
    rfl
  · cases written

theorem Measures.option {codec : Codec α} (content : codec.Measures) : (option codec).Measures := by
  intro value bytes written
  cases value with
  | none =>
    cases written
    rfl
  | some value =>
    obtain ⟨payload, encoded, rfl⟩ := Except.map_eq_ok_iff.mp written
    rw [List.length_cons, content value payload encoded, Codec.option, Nat.add_comm]

end Codec

end RowProjection.Wire
