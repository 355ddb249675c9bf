import Mathlib.Data.List.Basic
import RowProjection.Proofs.Wire.Takes

/-! Where a reader stops. A reader is bounded if its answer rests on the bytes it takes and on no
others: it answers the same in front of any bytes, and on fewer it runs out. Readers put together
from bounded ones are bounded. -/

namespace RowProjection.Wire

variable {α β : Type}

theorem takeBytes?_of_prefix {short bytes : List UInt8} (early : short <+: bytes)
    (other : short ≠ bytes) : takeBytes? bytes.length short = none :=
  if_neg fun enough => other (early.eq_of_length_le enough)

namespace Reader

/-- The reader misses bytes, and says so, wherever these end too early. -/
def RunsOut (reader : Reader α) (bytes : List UInt8) : Prop :=
  ∀ short, short <+: bytes → short ≠ bytes →
    ∃ fault, reader.run short = .error fault ∧ fault.faultClass = .unexpectedEof

/-- Whatever the reader answers, it reads off bytes in front, and runs out on fewer. -/
def Bounded (reader : Reader α) : Prop :=
  ∀ bytes value rest, reader.run bytes = .ok (value, rest) →
    ∃ taken, bytes = taken ++ rest ∧ reader.Reads taken value ∧ reader.RunsOut taken

theorem runsOut_nil (reader : Reader α) : reader.RunsOut [] :=
  fun _ early other => absurd (List.prefix_nil.mp early) other

end Reader

/-- Bytes that end too early end within the first part, or behind it within the second. -/
theorem ByteReader.Reads.runsOut_bind {reader : Reader α} {next : α → Reader β}
    {front back : List UInt8} {middle : α} (reads : reader.Reads front middle)
    (first : reader.RunsOut front) (second : (next middle).RunsOut back) :
    Reader.RunsOut (reader >>= next) (front ++ back) := by
  intro short early other
  by_cases reached : front <+: short
  · obtain ⟨behind, rfl⟩ := reached
    rw [List.prefix_append_right_inj] at early
    rw [Ne, List.append_right_inj] at other
    obtain ⟨fault, failed, cause⟩ := second behind early other
    refine ⟨fault, ?_, cause⟩
    rw [ByteReader.run_bind_of (reads _)]
    exact failed
  · have within : short <+: front :=
      (List.prefix_or_prefix_of_prefix early (List.prefix_append front back)).resolve_right reached
    have unfinished : short ≠ front := by
      rintro rfl
      exact reached List.prefix_rfl
    obtain ⟨fault, failed, cause⟩ := first short within unfinished
    exact ⟨fault, Reader.run_bind_error failed, cause⟩

namespace Reader

theorem RunsOut.map {reader : Reader α} {bytes : List UInt8} (function : α → β)
    (runsOut : reader.RunsOut bytes) : RunsOut (function <$> reader) bytes := by
  intro short early other
  obtain ⟨fault, failed, cause⟩ := runsOut short early other
  exact ⟨fault, run_map_error function failed, cause⟩

theorem Bounded.pure (value : α) : Bounded (pure value) := by
  intro bytes other rest read
  cases read
  exact ⟨[], rfl, .pure value, runsOut_nil _⟩

theorem Bounded.throw (fault : Fault) : Bounded (throw fault : Reader α) := by
  intro bytes value rest read
  cases read

theorem Bounded.bind {reader : Reader α} {next : α → Reader β} (first : reader.Bounded)
    (second : ∀ middle, (next middle).Bounded) : Bounded (reader >>= next) := by
  intro bytes value rest read
  obtain ⟨middle, remaining, start, behind⟩ := bind_eq_ok_iff.mp read
  obtain ⟨front, rfl, readsFront, runsOutFront⟩ := first _ _ _ start
  obtain ⟨back, rfl, readsBack, runsOutBack⟩ := second middle _ _ _ behind
  exact ⟨front ++ back, (List.append_assoc ..).symm, readsFront.bind readsBack,
    readsFront.runsOut_bind runsOutFront runsOutBack⟩

theorem Bounded.map {reader : Reader α} (function : α → β) (bounded : reader.Bounded) :
    Bounded (function <$> reader) := by
  intro bytes value rest read
  obtain ⟨content, first, rfl⟩ := map_eq_ok_iff.mp read
  obtain ⟨taken, front, reads, runsOut⟩ := bounded _ _ _ first
  exact ⟨taken, front, reads.map function, runsOut.map function⟩

/-- What a bounded reader reads off some bytes it does not read off fewer. -/
theorem Bounded.runsOut {reader : Reader α} {bytes : List UInt8} {value : α}
    (bounded : reader.Bounded) (reads : reader.Reads bytes value) : reader.RunsOut bytes := by
  obtain ⟨taken, front, _, runsOut⟩ := bounded _ _ _ (reads [])
  rw [List.append_cancel_right front]
  exact runsOut

theorem bounded_take (count : Nat) : (take count).Bounded := by
  intro bytes taken rest read
  obtain ⟨rfl, front⟩ := take_eq_ok read
  refine ⟨taken, front, reads_take rfl, fun short early other => ⟨.unexpectedEnd, ?_, rfl⟩⟩
  simp [take, StateT.run, takeBytes?_of_prefix early other]

theorem bounded_word (width : Nat) : (word width).Bounded :=
  (bounded_take width).map ofLittleEndian

theorem bounded_require (value? : Option α) (fault : Fault) : (require value? fault).Bounded := by
  cases value? with
  | none => exact .throw fault
  | some value => exact .pure value

end Reader

namespace Codec

theorem bounded_ofWord (width : Nat) (toWord : α → Nat) (fromWord : Nat → α) :
    (ofWord width toWord fromWord).read.Bounded :=
  (Reader.bounded_word width).map fromWord

theorem bounded_signed (width : Nat) : (signed width).read.Bounded :=
  bounded_ofWord _ _ _

theorem bounded_via {codec : Codec β} {toOther : α → β} {fromOther : β → α}
    (other : codec.read.Bounded) : (codec.via toOther fromOther).read.Bounded :=
  other.map fromOther

theorem bounded_boolean : boolean.read.Bounded :=
  bounded_via (bounded_ofWord _ _ _)

theorem bounded_decimal : decimal.read.Bounded :=
  (Reader.bounded_word 4).bind fun _ => (Reader.bounded_word 12).map _

/-- What is read of a text behind its length. -/
def textOf (length : Nat) : Reader String := fun bytes =>
  match takeBytes? length bytes with
  | none => .error (.textCutShort length bytes.length)
  | some (encoded, rest) =>
    match Text.Utf8.decode encoded with
    | .error fault => .error (.notText fault)
    | .ok value => .ok (value, rest)

theorem read_text : text.read = Reader.word 4 >>= textOf := by
  refine congrArg (Reader.word 4 >>= ·) (funext fun length => funext fun bytes => ?_)
  simp only [textOf, bind, StateT.bind, get, getThe, MonadStateOf.get, StateT.get, pure,
    Except.pure, Except.bind]
  cases takeBytes? length bytes with
  | none => rfl
  | some parts =>
    dsimp only
    cases Text.Utf8.decode parts.1 <;> rfl

/-- A text does not stop at the bytes that are there: where they are fewer than declared, it
fails. -/
theorem bounded_textOf (length : Nat) : (textOf length).Bounded := by
  intro bytes value rest read
  change textOf length bytes = _ at read
  simp only [textOf] at read
  split at read
  · cases read
  · next encoded remaining front =>
    split at read
    · cases read
    · next decoded =>
      cases read
      obtain ⟨rfl, rfl⟩ := takeBytes?_eq_some front
      refine ⟨encoded, rfl, fun others => ?_, fun short early other => ?_⟩
      · change textOf encoded.length (encoded ++ others) = _
        simp only [textOf, takeBytes?_append, decoded]
        rfl
      · refine ⟨.textCutShort encoded.length short.length, ?_, rfl⟩
        simp [textOf, StateT.run, takeBytes?_of_prefix early other]

theorem bounded_text : text.read.Bounded := by
  rw [read_text]
  exact (Reader.bounded_word 4).bind bounded_textOf

theorem bounded_option {codec : Codec α} (content : codec.read.Bounded) :
    (option codec).read.Bounded := by
  refine (Reader.bounded_word 1).bind fun tag => ?_
  split
  · exact .pure none
  · exact content.map some
  · exact .throw _

end Codec

end RowProjection.Wire
