import TransitNet.Words
import Mathlib.Data.List.Basic
import Mathlib.Data.Nat.Basic

/-! Texts and the C library functions on them. A C `char` and a Python character
are both a `Char`; a C string is its characters up to, and without, the NUL. -/
namespace TransitNet
open Words

abbrev Text := List Char

instance : LawfulBEq Text := inferInstance

/-- Ways a C station leaves defined behaviour. -/
inductive Fault
  | unset      -- a variable that `sscanf` did not set
  | null       -- a copy from a NULL pointer
  | overflow   -- a write past the end of a buffer, or a number that is no `int`
  | index      -- an array index out of range
  | freed      -- a read of memory that has been freed
  deriving DecidableEq, Repr

def INT_MAX : ℕ := 2147483647

def NUL : Char := '\x00'

/-- `isspace` in the C locale. -/
def isspace (c : Char) : Bool :=
  c = ' ' || c = '\t' || c = '\n' || c = '\x0b' || c = '\x0c' || c = '\r'

def strdup (s : Text) : Text := s.takeWhile (· ≠ NUL)

/-- One call of `strtok` on the rest that the last call left; `none` is NULL. -/
def strtok (delim : Char) (rest : Text) : Option Text × Text := Words.next (· = delim) rest

/-- `strcpy` into a buffer of `size` bytes. -/
def strcpy (size : ℕ) : Option Text → Except Fault Text
  | none => .error .null
  | some s => if s.length < size then .ok s else .error .overflow

/-- `%d` of `sprintf`. -/
def printInt (i : ℤ) : Text :=
  if i < 0 then '-' :: Nat.toDigits 10 i.natAbs else Nat.toDigits 10 i.natAbs

def scanDigits (s : Text) : Option (ℕ × Text) :=
  let digits := s.takeWhile Char.isDigit
  if digits.isEmpty then none else some (Nat.ofDigitChars 10 digits 0, s.dropWhile Char.isDigit)

/-- `%d` of `sscanf`: leading space, a sign, digits. -/
def scanInt (s : Text) : Option (ℤ × Text) :=
  match s.dropWhile isspace with
  | '-' :: t => (scanDigits t).map fun r => (-(r.1 : ℤ), r.2)
  | '+' :: t => (scanDigits t).map fun r => ((r.1 : ℤ), r.2)
  | t => (scanDigits t).map fun r => ((r.1 : ℤ), r.2)

/-- `%width[^stop]` of `sscanf`. -/
def scanUntil (stop : Char) (width : ℕ) (s : Text) : Option (Text × Text) :=
  let taken := (s.take width).takeWhile (· ≠ stop)
  if taken.isEmpty then none else some (taken, s.drop taken.length)

/-- `%s` of `sscanf`. -/
def scanWord (s : Text) : Option (Text × Text) :=
  let t := s.dropWhile isspace
  let taken := t.takeWhile (!isspace ·)
  if taken.isEmpty then none else some (taken, t.drop taken.length)

/-- Whitespace in the sense of Python's `str.isspace`; it includes C's. -/
def whitespace (c : Char) : Bool :=
  c.toNat ∈ [9, 10, 11, 12, 13, 28, 29, 30, 31, 32, 133, 160, 5760, 8192, 8193, 8194, 8195, 8196,
    8197, 8198, 8199, 8200, 8201, 8202, 8232, 8233, 8239, 8287, 12288]

/-- What cannot stand inside a field of the wire format. -/
def breaks (c : Char) : Bool := whitespace c || c = ';' || c = NUL

/-- A field of the wire format of at most `limit` characters. -/
structure Field (limit : ℕ) (s : Text) : Prop where
  word : Word breaks s
  short : s.length ≤ limit

theorem Field.mono {m n : ℕ} {s : Text} (h : Field m s) (le : m ≤ n) : Field n s :=
  ⟨h.word, Nat.le_trans h.short le⟩

instance (limit : ℕ) (s : Text) : Decidable (Field limit s) :=
  decidable_of_iff ((!s.isEmpty && s.all (!breaks ·) && s.length ≤ limit) = true) (by
    simp only [Bool.and_eq_true, Bool.not_eq_true', List.isEmpty_eq_false_iff, List.all_eq_true,
      decide_eq_true_eq]
    exact ⟨fun h => ⟨⟨h.1.1, h.1.2⟩, h.2⟩, fun h => ⟨⟨h.word.nonempty, h.word.clean⟩, h.short⟩⟩)

theorem whitespace_of_isspace {c : Char} (h : isspace c = true) : whitespace c = true := by
  simp only [isspace, Bool.or_eq_true, decide_eq_true_eq] at h
  rcases h with ((((rfl | rfl) | rfl) | rfl) | rfl) | rfl <;> decide

theorem breaks_space : breaks ' ' = true := by decide

theorem unbroken {c : Char} (h : breaks c = false) :
    whitespace c = false ∧ isspace c = false ∧ c ≠ ' ' ∧ c ≠ ';' ∧ c ≠ NUL := by
  simp only [breaks, Bool.or_eq_false_iff, decide_eq_false_iff_not] at h
  obtain ⟨⟨white, semi⟩, nul⟩ := h
  refine ⟨white, ?_, ?_, semi, nul⟩
  · cases space : isspace c with
    | false => rfl
    | true => rw [whitespace_of_isspace space] at white; cases white
  · rintro rfl
    exact absurd white (by decide)

theorem Field.of_sep {limit : ℕ} {s : Text} (h : Field limit s) (sep : Char → Bool)
    (weaker : ∀ c, breaks c = false → sep c = false) : Word sep s :=
  ⟨h.word.nonempty, fun c member => weaker c (h.word.clean c member)⟩

/-- A string that `strtok` can cut at `delim`, of at most `limit` characters. -/
structure Token (delim : Char) (limit : ℕ) (s : Text) : Prop where
  word : Word (fun c => c = delim || c = NUL) s
  short : s.length ≤ limit

instance (delim : Char) (limit : ℕ) (s : Text) : Decidable (Token delim limit s) :=
  decidable_of_iff ((!s.isEmpty && s.all (fun c => !(c = delim || c = NUL)) && s.length ≤ limit) = true) (by
    simp only [Bool.and_eq_true, Bool.not_eq_true', List.isEmpty_eq_false_iff, List.all_eq_true,
      decide_eq_true_eq]
    exact ⟨fun h => ⟨⟨h.1.1, h.1.2⟩, h.2⟩, fun h => ⟨⟨h.word.nonempty, h.word.clean⟩, h.short⟩⟩)

theorem Token.mono {delim : Char} {m n : ℕ} {s : Text} (h : Token delim m s) (le : m ≤ n) :
    Token delim n s :=
  ⟨h.word, Nat.le_trans h.short le⟩

theorem Field.token {limit : ℕ} {s : Text} (h : Field limit s) {delim : Char}
    (special : breaks delim = true) : Token delim limit s := by
  refine ⟨h.of_sep _ fun c clean => ?_, h.short⟩
  rw [Bool.or_eq_false_iff, decide_eq_false_iff_not, decide_eq_false_iff_not]
  refine ⟨?_, (unbroken clean).2.2.2.2⟩
  rintro rfl
  rw [special] at clean
  cases clean

theorem Token.delimited {delim : Char} {limit : ℕ} {s : Text} (h : Token delim limit s) :
    Word (· = delim) s :=
  ⟨h.word.nonempty, fun c member => (Bool.or_eq_false_iff.mp (h.word.clean c member)).1⟩

theorem Token.no_nul {delim : Char} {limit : ℕ} {s : Text} (h : Token delim limit s) : NUL ∉ s :=
  fun member => of_decide_eq_false (Bool.or_eq_false_iff.mp (h.word.clean NUL member)).2 rfl

theorem strcpy_ok {delim : Char} {size limit : ℕ} {s : Text} (h : Token delim limit s)
    (fits : limit < size) : strcpy size (some s) = .ok s := by
  have short := h.short
  simp only [strcpy]
  rw [if_pos (by omega)]

/-- What `strtok` and `strcpy` hand over is a token, and nothing new is read. -/
theorem strcpy_strtok {delim : Char} {size : ℕ} {s w : Text} (free : NUL ∉ s)
    (copied : strcpy (size + 1) (strtok delim s).1 = .ok w) :
    Token delim size w ∧ NUL ∉ (strtok delim s).2 := by
  cases cut : strtok delim s with
  | mk token rest =>
      rw [cut] at copied
      cases token with
      | none => cases copied
      | some v =>
          simp only [strcpy] at copied
          split at copied
          · rename_i short
            cases copied
            obtain ⟨word, old, behind⟩ := next_some cut
            refine ⟨⟨⟨word.nonempty, fun c member => ?_⟩, Nat.le_of_lt_succ short⟩, ?_⟩
            · rw [Bool.or_eq_false_iff]
              refine ⟨word.clean c member, decide_eq_false ?_⟩
              rintro rfl
              exact free (old _ member)
            · exact fun member => free (behind _ member)
          · cases copied

theorem all_ne {c : Char} {s : Text} (absent : c ∉ s) : ∀ d ∈ s, decide (d ≠ c) = true := by
  intro d member
  rw [decide_eq_true_eq]
  rintro rfl
  exact absent member

theorem strdup_self {s : Text} (h : NUL ∉ s) : strdup s = s :=
  List.takeWhile_eq_self_iff.mpr (all_ne h)

theorem strdup_append {s : Text} (h : NUL ∉ s) (rest : Text) : strdup (s ++ rest) = s ++ strdup rest :=
  List.takeWhile_append_of_pos (all_ne h)

theorem strdup_no_nul (s : Text) : NUL ∉ strdup s := by
  intro member
  exact absurd (List.mem_takeWhile_imp member) (by decide)

theorem toDigits_digit {n : ℕ} {c : Char} (h : c ∈ Nat.toDigits 10 n) : c.isDigit = true :=
  Nat.isDigit_of_mem_toDigits (by decide) (by decide) h

theorem digit_unbroken {c : Char} (h : c.isDigit = true) : breaks c = false := by
  have range : 48 ≤ c.toNat ∧ c.toNat ≤ 57 := by
    simp only [Char.isDigit, Bool.and_eq_true, decide_eq_true_eq] at h
    exact h
  have white : whitespace c = false := by
    simp only [whitespace, List.mem_cons, List.not_mem_nil, or_false, decide_eq_false_iff_not]
    omega
  have semi : c ≠ ';' := by rintro rfl; exact absurd range (by decide)
  have nul : c ≠ NUL := by rintro rfl; exact absurd range (by decide)
  simp only [breaks, white, semi, nul, decide_false, Bool.or_false]

theorem printInt_natCast (n : ℕ) : printInt n = Nat.toDigits 10 n := by
  rw [printInt, if_neg (by omega), Int.natAbs_natCast]

/-- A printed counter is a word of the wire format. -/
theorem toDigits_word (n : ℕ) : Word breaks (Nat.toDigits 10 n) :=
  ⟨Nat.toDigits_ne_nil, fun _ member => digit_unbroken (toDigits_digit member)⟩

theorem scanDigits_digits {ds rest : Text} (nonempty : ds ≠ []) (digits : ∀ c ∈ ds, c.isDigit = true)
    (ends : ∀ c ∈ rest.head?, c.isDigit = false) :
    scanDigits (ds ++ rest) = some (Nat.ofDigitChars 10 ds 0, rest) := by
  have stop : rest.takeWhile Char.isDigit = [] ∧ rest.dropWhile Char.isDigit = rest := by
    cases rest with
    | nil => exact ⟨rfl, rfl⟩
    | cons c rest =>
        have other := ends c rfl
        simp only [List.takeWhile_cons, List.dropWhile_cons, other, Bool.false_eq_true, if_false,
          and_self]
  simp only [scanDigits, List.takeWhile_append_of_pos digits, List.dropWhile_append_of_pos digits,
    stop, List.append_nil, List.isEmpty_iff]
  rw [if_neg nonempty]

theorem scanInt_digits {ds rest : Text} (nonempty : ds ≠ []) (digits : ∀ c ∈ ds, c.isDigit = true)
    (ends : ∀ c ∈ rest.head?, c.isDigit = false) :
    scanInt (ds ++ rest) = some ((Nat.ofDigitChars 10 ds 0 : ℤ), rest) := by
  have scanned := scanDigits_digits nonempty digits ends
  cases ds with
  | nil => exact absurd rfl nonempty
  | cons d ds =>
      have digit : d.isDigit = true := digits d List.mem_cons_self
      have nospace := (unbroken (digit_unbroken digit)).2.1
      have minus : d ≠ '-' := by rintro rfl; exact absurd digit (by decide)
      have plus : d ≠ '+' := by rintro rfl; exact absurd digit (by decide)
      rw [scanInt, List.cons_append, List.dropWhile_cons, nospace]
      simp only [Bool.false_eq_true, if_false]
      split
      · rename_i same; exact absurd (List.cons.inj same).1 minus
      · rename_i same; exact absurd (List.cons.inj same).1 plus
      · rw [List.cons_append] at scanned; rw [scanned]; rfl

theorem scanInt_toDigits (n : ℕ) {rest : Text} (ends : ∀ c ∈ rest.head?, c.isDigit = false) :
    scanInt (Nat.toDigits 10 n ++ rest) = some ((n : ℤ), rest) := by
  rw [scanInt_digits Nat.toDigits_ne_nil (fun _ => toDigits_digit) ends, Nat.ofDigitChars_ten_toDigits]

theorem scanInt_space {c : Char} (h : isspace c = true) (s : Text) : scanInt (c :: s) = scanInt s := by
  simp only [scanInt, List.dropWhile_cons, h, if_true]

/-! ### Times of day -/

def twoDigits (n : ℕ) : Text := [Nat.digitChar (n / 10), Nat.digitChar (n % 10)]

def clock (hours minutes : ℕ) : Text := twoDigits hours ++ ':' :: twoDigits minutes

/-- `HH:MM`, below 24:00. -/
def HHMM (s : Text) : Prop := ∃ hours minutes, hours < 24 ∧ minutes < 60 ∧ s = clock hours minutes

instance (s : Text) : Decidable (HHMM s) :=
  decidable_of_iff (((List.range 24).any fun hours => (List.range 60).any fun minutes =>
      s = clock hours minutes) = true) (by
    simp only [List.any_eq_true, List.mem_range, decide_eq_true_eq]
    exact ⟨fun ⟨hours, early, minutes, short, same⟩ => ⟨hours, minutes, early, short, same⟩,
      fun ⟨hours, minutes, early, short, same⟩ => ⟨hours, early, minutes, short, same⟩⟩)

theorem twoDigits_digit {n : ℕ} (h : n < 100) {c : Char} (member : c ∈ twoDigits n) :
    c.isDigit = true := by
  simp only [twoDigits, List.mem_cons, List.not_mem_nil, or_false] at member
  rcases member with rfl | rfl
  · rw [Nat.isDigit_digitChar, decide_eq_true_eq]
    omega
  · rw [Nat.isDigit_digitChar, decide_eq_true_eq]
    omega

theorem twoDigits_value {n : ℕ} (h : n < 100) : Nat.ofDigitChars 10 (twoDigits n) 0 = n := by
  rw [twoDigits, Nat.ofDigitChars_cons_digitChar_of_lt_ten (by omega),
    Nat.ofDigitChars_cons_digitChar_of_lt_ten (by omega), Nat.ofDigitChars_nil]
  omega

end TransitNet
