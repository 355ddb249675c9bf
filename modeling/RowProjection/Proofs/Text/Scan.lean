import RowProjection.Proofs.Text.Digits
import RowProjection.Text.Scan

namespace RowProjection.Text

/-- The characters of numbers, dates and times: digits, and the marks between them. -/
def AreFigures (text : List Char) : Prop :=
  ∀ char ∈ text, char.isDigit = true ∨ char ∈ ['-', '+', '.', ':', 'T']

namespace AreFigures

variable {text front back : List Char} {mark : Char}

theorem nil : AreFigures [] :=
  nofun

theorem cons (figure : mark.isDigit = true ∨ mark ∈ ['-', '+', '.', ':', 'T'])
    (figures : AreFigures back) : AreFigures (mark :: back) :=
  List.forall_mem_cons.mpr ⟨figure, figures⟩

theorem append (first : AreFigures front) (second : AreFigures back) :
    AreFigures (front ++ back) :=
  List.forall_mem_append.mpr ⟨first, second⟩

theorem of_digits (all : ∀ digit ∈ text, digit.isDigit = true) : AreFigures text :=
  fun digit member => .inl (all digit member)

theorem padded {width number : Nat} : AreFigures (Digits.padded width number) :=
  of_digits fun _ => Digits.isDigit_of_mem_padded

theorem ofInt (number : Int) : AreFigures (Digits.ofInt number) := by
  cases number with
  | ofNat number => exact of_digits fun _ => Digits.isDigit_of_mem_ofNat
  | negSucc before => exact cons (by decide) (of_digits fun _ => Digits.isDigit_of_mem_ofNat)

theorem not_blank (figures : AreFigures text) : ∀ char ∈ text, isBlank char = false := by
  intro char member
  rcases figures char member with digit | mark
  · simp only [Char.isDigit, Bool.and_eq_true, decide_eq_true_eq, ge_iff_le,
      UInt32.le_iff_toNat_le] at digit
    have least : 48 ≤ char.toNat := digit.1
    have greatest : char.toNat ≤ 57 := digit.2
    simp only [isBlank, blankRanges, List.any_cons, List.any_nil, Bool.or_false,
      Bool.or_eq_false_iff, Bool.and_eq_false_iff, decide_eq_false_iff_not]
    omega
  · simp only [List.mem_cons, List.not_mem_nil, or_false] at mark
    rcases mark with rfl | rfl | rfl | rfl | rfl <;> rfl

/-- Nothing is trimmed off a text of figures. -/
theorem trim (figures : AreFigures text) : trim text = text := by
  have kept {text : List Char} (none : ∀ char ∈ text, isBlank char = false) :
      trimStart text = text := by
    cases text with
    | nil => rfl
    | cons head text => exact List.dropWhile_cons_of_neg (by simp [none head List.mem_cons_self])
  have back : ∀ char ∈ text.reverse, isBlank char = false :=
    fun char member => figures.not_blank char (List.mem_reverse.mp member)
  rw [Text.trim, kept figures.not_blank, kept back, List.reverse_reverse]

end AreFigures

namespace Scan

variable {α β : Type} {text digits rest : List Char}

/-- What a reader answers is handed on, with what it leaves. -/
theorem bind_of {scan : Scan α} {next : α → Scan β} {answer : α}
    (taken : scan text = some (answer, rest)) : (scan >>= next) text = next answer rest := by
  change ((scan text).bind fun taken => next taken.1 taken.2) = _
  rw [taken]
  rfl

/-- An answer that is given without a look at the text. -/
theorem bind_lift {answer? : Option α} {next : α → Scan β} {answer : α}
    (found : answer? = some answer) : ((answer? : Scan α) >>= next) text = next answer text :=
  bind_of (by rw [found]; rfl)

theorem char_cons (mark : Char) : char mark (mark :: rest) = some ((), rest) :=
  if_pos rfl

theorem oneOf_cons {mark : Char} {allowed : List Char} (member : mark ∈ allowed) :
    oneOf allowed (mark :: rest) = some (mark, rest) :=
  if_pos member

theorem discard_oneOf_cons {mark : Char} {allowed : List Char} (member : mark ∈ allowed) :
    (discard (oneOf allowed) : Scan Unit) (mark :: rest) = some ((), rest) := by
  change ((oneOf allowed (mark :: rest)).bind fun taken => some ((), taken.2)) = _
  rw [oneOf_cons member]
  rfl

/-- There are no blanks to take in front of figures. -/
theorem blanks_append {figures : List Char} (some : figures ≠ []) (all : AreFigures figures) :
    blanks (figures ++ rest) = Option.some ((), figures ++ rest) := by
  cases figures with
  | nil => exact absurd rfl some
  | cons head figures =>
    have dark := all.not_blank head List.mem_cons_self
    rw [List.cons_append, blanks, trimStart, List.dropWhile_cons_of_neg (by simp [dark])]

theorem allDigits_append (some : digits ≠ []) (all : ∀ digit ∈ digits, digit.isDigit = true)
    (stop : ∀ head ∈ rest.head?, head.isDigit = false) :
    allDigits (digits ++ rest) = Option.some (digits, rest) := by
  simp [allDigits, Digits.split_append all stop, some]

theorem allDigits_padded (width number : Nat) (stop : ∀ head ∈ rest.head?, head.isDigit = false) :
    allDigits (Digits.padded width number ++ rest) = some (Digits.padded width number, rest) :=
  allDigits_append Digits.padded_ne_nil (fun _ => Digits.isDigit_of_mem_padded) stop

/-- A number is read at its full width, whatever stands behind it. -/
theorem number_padded {width least number : Nat} (positive : 0 < width) (short : least ≤ width)
    (fits : number < 10 ^ width) (rest : List Char) :
    Scan.number least width (Digits.padded width number ++ rest) = some (number, rest) := by
  have length := Digits.length_padded positive fits
  have all : ∀ digit ∈ Digits.padded width number, digit.isDigit = true :=
    fun _ => Digits.isDigit_of_mem_padded
  have taken := Digits.splitAtMost_append all rest
  rw [length] at taken
  have enough : least ≤ (Digits.padded width number).length := by omega
  have read : digits least width (Digits.padded width number ++ rest) =
      some (Digits.padded width number, rest) := by
    simp only [digits, taken, if_pos enough]
  rw [Scan.number, bind_of read, Digits.value_padded]
  rfl

theorem whole?_of_append {scan : Scan α} {answer : α}
    (taken : scan (text ++ []) = some (answer, [])) : whole? scan text = some answer := by
  rw [List.append_nil] at taken
  rw [whole?, taken]

end Scan

end RowProjection.Text
