import RowProjection.Proofs.Outcome
import RowProjection.Proofs.Wire.Reads

namespace RowProjection.Wire

theorem ofLittleEndian_lt (word : List UInt8) : ofLittleEndian word < 256 ^ word.length := by
  induction word with
  | nil => decide
  | cons byte word ih =>
    have bound := byte.toNat_lt
    rw [ofLittleEndian, List.length_cons, Nat.pow_succ']
    omega

theorem littleEndian_ofLittleEndian (word : List UInt8) :
    littleEndian word.length (ofLittleEndian word) = word := by
  induction word with
  | nil => rfl
  | cons byte word ih =>
    have bound := byte.toNat_lt
    have low : UInt8.ofNat (byte.toNat + 256 * ofLittleEndian word) = byte := by
      apply UInt8.toNat_inj.mp
      rw [UInt8.toNat_ofNat']
      omega
    have high : (byte.toNat + 256 * ofLittleEndian word) / 256 = ofLittleEndian word := by omega
    rw [List.length_cons, ofLittleEndian, littleEndian, low, high, ih]

theorem littleEndian_injective {width left right : Nat} (left_lt : left < 256 ^ width)
    (right_lt : right < 256 ^ width) (same : littleEndian width left = littleEndian width right) :
    left = right := by
  have words := congrArg ofLittleEndian same
  rwa [ofLittleEndian_littleEndian, ofLittleEndian_littleEndian, Nat.pow_eq,
    Nat.mod_eq_of_lt left_lt, Nat.mod_eq_of_lt right_lt] at words

variable {α β : Type} {bytes rest : List UInt8}

theorem takeBytes?_eq_some {count : Nat} {taken : List UInt8}
    (front : takeBytes? count bytes = some (taken, rest)) :
    taken.length = count ∧ bytes = taken ++ rest := by
  rw [takeBytes?] at front
  split at front
  · next enough =>
    cases front
    exact ⟨List.length_take_of_le enough, (List.take_append_drop count bytes).symm⟩
  · cases front

namespace Reader

theorem bind_eq_ok_iff {reader : Reader α} {next : α → Reader β} {value : β} :
    (reader >>= next).run bytes = .ok (value, rest) ↔
      ∃ middle remaining, reader.run bytes = .ok (middle, remaining) ∧
        (next middle).run remaining = .ok (value, rest) := by
  rw [StateT.run_bind, Except.bind_eq_ok_iff]
  constructor
  · rintro ⟨⟨middle, remaining⟩, first, second⟩
    exact ⟨middle, remaining, first, second⟩
  · rintro ⟨middle, remaining, first, second⟩
    exact ⟨(middle, remaining), first, second⟩

theorem map_eq_ok_iff {reader : Reader α} {function : α → β} {value : β} :
    (function <$> reader).run bytes = .ok (value, rest) ↔
      ∃ middle, reader.run bytes = .ok (middle, rest) ∧ function middle = value := by
  rw [map_eq_pure_bind, bind_eq_ok_iff]
  constructor
  · rintro ⟨middle, remaining, first, same⟩
    cases same
    exact ⟨middle, first, rfl⟩
  · rintro ⟨middle, first, rfl⟩
    exact ⟨middle, rest, first, rfl⟩

theorem take_eq_ok {count : Nat} {taken : List UInt8}
    (read : (take count).run bytes = .ok (taken, rest)) :
    taken.length = count ∧ bytes = taken ++ rest := by
  change take count bytes = .ok (taken, rest) at read
  rw [take] at read
  split at read
  · next front =>
    cases read
    exact takeBytes?_eq_some front
  · cases read

theorem word_eq_ok {width number : Nat} (read : (word width).run bytes = .ok (number, rest)) :
    number < 256 ^ width ∧ bytes = littleEndian width number ++ rest := by
  obtain ⟨taken, first, rfl⟩ := map_eq_ok_iff.mp read
  obtain ⟨rfl, rfl⟩ := take_eq_ok first
  exact ⟨ofLittleEndian_lt taken, by rw [littleEndian_ofLittleEndian]⟩

/-- Whatever the reader answers, it takes bytes from the front and leaves those behind. -/
def Takes (reader : Reader α) : Prop :=
  ∀ bytes value rest, reader.run bytes = .ok (value, rest) → ∃ taken, bytes = taken ++ rest

theorem takes_word (width : Nat) : (word width).Takes := by
  intro bytes number rest read
  exact ⟨_, (word_eq_ok read).2⟩

theorem require_eq_ok {value? : Option α} {fault : Fault} {value : α}
    (read : (require value? fault).run bytes = .ok (value, rest)) :
    value? = some value ∧ bytes = rest := by
  cases value? with
  | none => cases read
  | some present =>
    cases read
    exact ⟨rfl, rfl⟩

end Reader

namespace Codec

theorem uint32_eq_ok {word : UInt32} (read : uint32.read.run bytes = .ok (word, rest)) :
    bytes = littleEndian 4 word.toNat ++ rest := by
  obtain ⟨number, first, rfl⟩ := Reader.map_eq_ok_iff.mp read
  obtain ⟨fits, same⟩ := Reader.word_eq_ok first
  rw [same, UInt32.toNat_ofNat_of_lt' fits]

/-- Whatever the codec reads, it writes as the bytes that it was read from. -/
def WritesBack (codec : Codec α) : Prop :=
  ∀ bytes value rest, codec.read.run bytes = .ok (value, rest) →
    ∃ written, codec.write value = .ok written ∧ bytes = written ++ rest

theorem writesBack_ofWord {width : Nat} {toWord : α → Nat} {fromWord : Nat → α}
    (same : ∀ number < 256 ^ width, toWord (fromWord number) = number) :
    (ofWord width toWord fromWord).WritesBack := by
  intro bytes value rest read
  obtain ⟨number, first, rfl⟩ := Reader.map_eq_ok_iff.mp read
  obtain ⟨fits, front⟩ := Reader.word_eq_ok first
  exact ⟨littleEndian width number, by simp only [ofWord, same number fits], front⟩

theorem WritesBack.via {codec : Codec β} {toOther : α → β} {fromOther : β → α}
    (other : codec.WritesBack)
    (same : ∀ bytes value rest, codec.read.run bytes = .ok (value, rest) →
      toOther (fromOther value) = value) : (codec.via toOther fromOther).WritesBack := by
  intro bytes value rest read
  obtain ⟨content, first, rfl⟩ := Reader.map_eq_ok_iff.mp read
  obtain ⟨written, encoded, front⟩ := other bytes content rest first
  exact ⟨written, by simpa only [Codec.via, same bytes content rest first] using encoded, front⟩

theorem writesBack_uint8 : uint8.WritesBack :=
  writesBack_ofWord fun _ fits => UInt8.toNat_ofNat_of_lt' fits

theorem writesBack_uint32 : uint32.WritesBack :=
  writesBack_ofWord fun _ fits => UInt32.toNat_ofNat_of_lt' fits

theorem writesBack_uint64 : uint64.WritesBack :=
  writesBack_ofWord fun _ fits => UInt64.toNat_ofNat_of_lt' fits

theorem writesBack_signed (width : Nat) : (signed width).WritesBack := by
  apply writesBack_ofWord
  intro number fits
  have below : (number : Int) < (256 ^ width : Nat) := Int.ofNat_lt.mpr fits
  rw [wordOfInt, intOfWord, Nat.pow_eq, Int.bmod_emod,
    Int.emod_eq_of_lt (Int.natCast_nonneg number) below, Int.toNat_natCast]

/-- What is read in two's complement lies in the range of the word. -/
theorem signed_eq_ok {width : Nat} {number : Int}
    (read : (signed width).read.run bytes = .ok (number, rest)) :
    -(256 ^ width : Nat) ≤ 2 * number ∧ 2 * number < (256 ^ width : Nat) := by
  obtain ⟨word, _, rfl⟩ := Reader.map_eq_ok_iff.mp read
  have positive : 0 < 256 ^ width := Nat.pow_pos (by decide)
  rw [intOfWord, Nat.pow_eq]
  have least := Int.le_bmod (x := word) positive
  have greatest := Int.bmod_lt (x := word) positive
  omega

theorem writesBack_int8 : int8.WritesBack := by
  apply (writesBack_signed 1).via
  intro bytes number rest read
  have range := signed_eq_ok read
  exact Int8.toInt_ofInt_of_le (by omega) (by omega)

theorem writesBack_int16 : int16.WritesBack := by
  apply (writesBack_signed 2).via
  intro bytes number rest read
  have range := signed_eq_ok read
  exact Int16.toInt_ofInt_of_le (by omega) (by omega)

theorem writesBack_int32 : int32.WritesBack := by
  apply (writesBack_signed 4).via
  intro bytes number rest read
  have range := signed_eq_ok read
  exact Int32.toInt_ofInt_of_le (by omega) (by omega)

theorem writesBack_int64 : int64.WritesBack := by
  apply (writesBack_signed 8).via
  intro bytes number rest read
  have range := signed_eq_ok read
  exact Int64.toInt_ofInt_of_le (by omega) (by omega)

theorem writesBack_single : single.WritesBack :=
  writesBack_uint32.via fun _ _ _ _ => rfl

theorem writesBack_double : double.WritesBack :=
  writesBack_uint64.via fun _ _ _ _ => rfl

theorem writesBack_text : text.WritesBack := by
  intro bytes value rest read
  obtain ⟨length, remaining, first, behind⟩ := Reader.bind_eq_ok_iff.mp read
  obtain ⟨fits, rfl⟩ := Reader.word_eq_ok first
  simp only [StateT.run_bind, StateT.run_get] at behind
  obtain ⟨⟨present, _⟩, got, behind⟩ := Except.bind_eq_ok_iff.mp behind
  cases got
  dsimp only at behind
  split at behind
  · cases behind
  · next taken left front =>
    split at behind
    · cases behind
    · next decoded =>
      cases behind
      obtain ⟨enough, rfl⟩ := takeBytes?_eq_some front
      have spelled := Text.Utf8.bytes_of_decode decoded
      refine ⟨littleEndian 4 length ++ taken, ?_, ?_⟩
      · have short : length < UInt32.size := fits
        simp only [text, spelled, enough, if_pos short]
      · rw [List.append_assoc]

end Codec

end RowProjection.Wire
