import Mathlib.Data.List.TakeWhile

/-! `scanf` with string conversions. A format is a list of directives; what it reads of an input is the
list of strings it assigns, up to the first directive that does not match. -/
namespace Scanf

inductive Directive (α : Type*)
  | space
  | literal (c : α)
  | set (width : Option ℕ) (member : α → Bool)

variable {α : Type*}

/-- The ordinary characters of a format: white space matches any white space, another character itself. -/
def ordinary (white : α → Bool) (text : List α) : List (Directive α) :=
  text.map fun c => if white c then .space else .literal c

/-- What `%width[member]` reads. -/
def field (width : Option ℕ) (member : α → Bool) (s : List α) : List α :=
  match width with
  | none => s.takeWhile member
  | some n => (s.take n).takeWhile member

def sscanf [DecidableEq α] (white : α → Bool) : List (Directive α) → List α → List (List α)
  | [], _ => []
  | .space :: format, s => sscanf white format (s.dropWhile white)
  | .literal _ :: _, [] => []
  | .literal c :: format, d :: s => if d = c then sscanf white format s else []
  | .set width member :: format, s =>
      if (field width member s).isEmpty then []
      else field width member s :: sscanf white format (s.drop (field width member s).length)

/-- A conversion without a width reads up to the first character that is not in the set. -/
theorem field_stops {member : α → Bool} {w s : List α} (inside : ∀ c ∈ w, member c = true)
    (stops : ∀ c ∈ s.head?, member c = false) : field none member (w ++ s) = w := by
  have nothing : s.takeWhile member = [] := by
    cases s with
    | nil => rfl
    | cons c s => exact List.takeWhile_cons_of_neg (by rw [stops c rfl]; exact Bool.false_ne_true)
  rw [field, List.takeWhile_append_of_pos inside, nothing, List.append_nil]

/-- A conversion with a width reads no more than that. -/
theorem field_width {member : α → Bool} {w : List α} {n : ℕ} (inside : ∀ c ∈ w, member c = true)
    (long : w.length = n) (s : List α) : field (some n) member (w ++ s) = w := by
  rw [field, ← long, List.take_left]
  exact List.takeWhile_eq_self_iff.mpr inside

variable {white : α → Bool}

theorem ordinary_white {c : α} (blank : white c = true) (text : List α) :
    ordinary white (c :: text) = .space :: ordinary white text := by
  rw [ordinary, List.map_cons, if_pos blank]
  rfl

theorem ordinary_letter {c : α} (letter : white c = false) (text : List α) :
    ordinary white (c :: text) = .literal c :: ordinary white text := by
  rw [ordinary, List.map_cons, letter]
  rfl

variable [DecidableEq α] {format : List (Directive α)}

/-- White space in front of an input may go, if the format begins as the input does. -/
theorem sscanf_dropWhile (c : α) (text s : List α) :
    sscanf white (ordinary white (c :: text) ++ format) ((c :: s).dropWhile white) =
      sscanf white (ordinary white (c :: text) ++ format) (c :: s) := by
  cases blank : white c with
  | false => rw [List.dropWhile_cons_of_neg (by rw [blank]; exact Bool.false_ne_true)]
  | true =>
      have again : ((c :: s).dropWhile white).dropWhile white = (c :: s).dropWhile white := by
        rw [List.dropWhile_eq_self_iff]
        exact fun some => List.dropWhile_get_zero_not white (c :: s) some
      rw [ordinary_white blank, List.cons_append, sscanf, sscanf, again]

/-- Ordinary characters read themselves, if no white space stands at their end. -/
theorem sscanf_ordinary {text : List α} (ends : text.getLast?.any white = false) (s : List α) :
    sscanf white (ordinary white text ++ format) (text ++ s) = sscanf white format s := by
  induction text with
  | nil => rfl
  | cons c text ih =>
      have behind : text.getLast?.any white = false := by
        cases text with
        | nil => rfl
        | cons d text =>
            rw [List.getLast?_cons_cons] at ends
            exact ends
      cases blank : white c with
      | false =>
          rw [ordinary_letter blank, List.cons_append, List.cons_append, sscanf, if_pos rfl]
          exact ih behind
      | true =>
          rw [ordinary_white blank, List.cons_append, List.cons_append, sscanf, List.dropWhile_cons_of_pos blank]
          cases text with
          | nil =>
              have letter : white c = false := ends
              rw [blank] at letter
              cases letter
          | cons d text =>
              rw [List.cons_append, sscanf_dropWhile]
              exact ih behind

/-- Ordinary characters assign nothing. -/
theorem sscanf_ordinary_nil (text s : List α) : sscanf white (ordinary white text) s = [] := by
  induction text generalizing s with
  | nil => rfl
  | cons c text ih =>
      cases blank : white c with
      | true =>
          rw [ordinary_white blank, sscanf]
          exact ih _
      | false =>
          rw [ordinary_letter blank]
          cases s with
          | nil => rfl
          | cons d s =>
              rw [sscanf]
              split
              · exact ih s
              · rfl

theorem sscanf_field {width : Option ℕ} {member : α → Bool} {s : List α} (some : field width member s ≠ []) :
    sscanf white (.set width member :: format) s =
      field width member s :: sscanf white format (s.drop (field width member s).length) := by
  rw [sscanf, List.isEmpty_eq_false_iff.mpr some]
  rfl

theorem sscanf_set {width : Option ℕ} {member : α → Bool} {w s : List α} (some : w ≠ [])
    (read : field width member (w ++ s) = w) :
    sscanf white (.set width member :: format) (w ++ s) = w :: sscanf white format s := by
  rw [sscanf_field (by rw [read]; exact some), read, List.drop_left]

theorem sscanf_last {width : Option ℕ} {member : α → Bool} {w : List α} (some : w ≠ [])
    (read : field width member w = w) : sscanf white [.set width member] w = [w] := by
  rw [sscanf_field (by rw [read]; exact some), read, sscanf]

/-- Whatever comes behind it, the first conversion assigns what it reads. -/
theorem sscanf_set_head {width : Option ℕ} {member : α → Bool} {s w : List α} {rest : List (List α)}
    (scanned : sscanf white (.set width member :: format) s = w :: rest) : w = field width member s := by
  by_cases nothing : field width member s = []
  · rw [sscanf, nothing] at scanned
    cases scanned
  · rw [sscanf_field nothing] at scanned
    exact (List.cons.inj scanned).1.symm

end Scanf
