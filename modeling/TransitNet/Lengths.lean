import TransitNet.Handler
import Mathlib.Tactic.Ring

/-! How long the crafted texts are, and whether they fit what `craft_payload` allocates. -/
namespace TransitNet
open Words

/-- All characters of the strings. -/
def letters (xs : List Text) : ℕ := (xs.map List.length).sum

@[simp] theorem letters_nil : letters [] = 0 := rfl

@[simp] theorem letters_cons (x : Text) (xs : List Text) : letters (x :: xs) = x.length + letters xs := by
  rw [letters, List.map_cons, List.sum_cons, letters]

@[simp] theorem letters_append (xs ys : List Text) : letters (xs ++ ys) = letters xs + letters ys := by
  rw [letters, List.map_append, List.sum_append, letters, letters]

theorem length_spaced_letters (c : Char) (ws : List Text) :
    (spaced c ws).length = ws.length + letters ws := by
  induction ws with
  | nil => rfl
  | cons w ws ih =>
      rw [spaced_cons, List.length_cons, List.length_append, ih, List.length_cons, letters_cons]
      omega

/-- The digits of the three counters. -/
def PAYLOAD.digits (p : PAYLOAD) : ℕ :=
  (printInt p.found).length + (printInt p.hops).length + (printInt p.current).length

theorem PAYLOAD.length_text (p : PAYLOAD) : p.text.length =
    p.digits + 2 + (p.stations.length + letters p.stations) + (p.address.length + letters p.address) +
      (p.routes.length + letters p.routes) + (p.time.length + letters p.time) +
      (p.destination.length + p.source.length + p.start_time.length + 4) := by
  simp only [PAYLOAD.text, PAYLOAD.header, PAYLOAD.body, PAYLOAD.digits, List.length_append,
    List.length_cons, List.length_nil, length_spaced_letters]
  omega

/-! ### The allocation of `craft_payload` -/

/-- The argument of `malloc`, an `int`. -/
def craft_size (p : PAYLOAD) : Except Fault ℤ :=
  let size := p.hops * (MAX_NAME_LENGTH + MAX_PORT + INET6_ADDRSTRLEN + 1 + MAX_TIMESTRING + MAX_NAME_LENGTH) +
    2 * MAX_NAME_LENGTH + MAX_TIMESTRING
  if size ≤ INT_MAX then .ok size else .error .overflow

/-- What the strings leave unused of a limit. -/
def unused (limit : ℕ) (xs : List Text) : ℤ := (xs.map fun s => (limit : ℤ) - s.length).sum

theorem unused_eq (limit : ℕ) (xs : List Text) :
    unused limit xs = limit * xs.length - letters xs := by
  induction xs with
  | nil => simp [unused]
  | cons x xs ih =>
      rw [unused, List.map_cons, List.sum_cons, ← unused, ih, List.length_cons, letters_cons]
      push_cast
      ring

/-- What the strings of the payload leave unused of the limits of their fields. -/
def PAYLOAD.slack (p : PAYLOAD) : ℤ :=
  unused 60 p.stations + unused 54 p.address + unused 60 p.routes + unused 5 p.time +
    unused 60 [p.destination, p.source] + unused 5 [p.start_time]

theorem PAYLOAD.Sized.slack_eq {p : PAYLOAD} (h : p.Sized) :
    p.slack + p.text.length = p.digits + 183 * p.hops + 131 := by
  obtain ⟨h₁, h₂, h₃, h₄⟩ := h
  simp only [PAYLOAD.slack, unused_eq, PAYLOAD.length_text, h₁, h₂, h₃, h₄, letters_cons, letters_nil,
    List.length_cons, List.length_nil]
  push_cast
  rw [h₁, h₂, h₃, h₄]
  ring

theorem craft_size_eq (p : PAYLOAD) : craft_size p =
    if 183 * p.hops + 128 ≤ INT_MAX then .ok (183 * p.hops + 128) else .error .overflow := by
  have size : p.hops * (MAX_NAME_LENGTH + MAX_PORT + INET6_ADDRSTRLEN + 1 + MAX_TIMESTRING + MAX_NAME_LENGTH) +
      2 * MAX_NAME_LENGTH + MAX_TIMESTRING = 183 * p.hops + 128 := by
    simp only [MAX_NAME_LENGTH, MAX_PORT, INET6_ADDRSTRLEN, MAX_TIMESTRING]
    push_cast
    ring
  rw [craft_size, size]

/-- The text and its NUL stay inside the allocation exactly if the strings leave room for the
digits of the counters and four characters more, and the size is an `int`. -/
theorem craft_stays_inside_iff (p : PAYLOAD) (sized : p.Sized) :
    (∃ text size, craft_payload p = .ok text ∧ craft_size p = .ok size ∧ (text.length : ℤ) + 1 ≤ size) ↔
      p.digits + 4 ≤ p.slack ∧ 183 * p.hops + 128 ≤ INT_MAX := by
  have balance := sized.slack_eq
  rw [craft_payload_text sized, craft_size_eq]
  constructor
  · rintro ⟨text, bytes, crafted, allocated, inside⟩
    cases crafted
    split at allocated
    · cases allocated
      exact ⟨by omega, by assumption⟩
    · cases allocated
  · rintro ⟨room, int⟩
    refine ⟨_, _, rfl, if_pos int, ?_⟩
    omega

theorem backtraced_stays_inside : ∃ text size, craft_payload backtraced = .ok text ∧
    craft_size backtraced = .ok size ∧ (text.length : ℤ) + 1 ≤ size :=
  (craft_stays_inside_iff backtraced ⟨rfl, rfl, rfl, rfl⟩).mpr ⟨by decide +kernel, by decide +kernel⟩

/-- One station, and every field as long as it may be. -/
def filled : PAYLOAD where
  found := 2
  hops := 1
  current := 1
  stations := [List.replicate 60 'S']
  address := [List.replicate 54 '1']
  routes := [List.replicate 60 'R']
  time := ["08:00".toList]
  destination := List.replicate 60 'D'
  source := List.replicate 60 'S'
  start_time := "08:00".toList

/-- The payload that fills its buffers overruns the allocation by seven bytes. -/
theorem filled_overruns : filled.Loadable ∧ 1 ≤ filled.hops ∧ ∃ text size, craft_payload filled = .ok text ∧
    craft_size filled = .ok size ∧ (text.length : ℤ) + 1 = size + 7 := by
  refine ⟨⟨⟨rfl, rfl, rfl, rfl⟩, by decide, by decide, by decide, ?_, ?_, ?_, ?_, ?_, ?_, ?_⟩, by decide,
    filled.text, 311, craft_payload_text ⟨rfl, rfl, rfl, rfl⟩, by decide +kernel, by decide +kernel⟩ <;>
      decide +kernel

end TransitNet
