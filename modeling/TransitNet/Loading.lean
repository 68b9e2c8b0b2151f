import TransitNet.Codec

/-! The texts that `load_payload` survives. It asks for as many words as the counter of hops
says, and checks neither that they are there nor that they fit. -/
namespace TransitNet
open Words

/-- A copy loop runs through if the words are there and fit the buffers. -/
theorem copyTokens_iff {size n : ℕ} {s rest : Text} {ws : List Text} :
    copyTokens (size + 1) n s = .ok (ws, rest) ↔ n ≤ (split (· = ' ') s).length ∧
      (∀ w ∈ (split (· = ' ') s).take n, w.length ≤ size) ∧ ws = (split (· = ' ') s).take n ∧
        rest = skip (· = ' ') n s := by
  induction n generalizing s ws with
  | zero =>
      rw [copyTokens, Except.ok.injEq, Prod.mk.injEq, List.take_zero, skip]
      constructor
      · rintro ⟨rfl, rfl⟩
        exact ⟨Nat.zero_le _, fun w member => absurd member List.not_mem_nil, rfl, rfl⟩
      · rintro ⟨_, _, rfl, rfl⟩
        exact ⟨rfl, rfl⟩
  | succ n ih =>
      have behind : skip (· = ' ') (n + 1) s = skip (· = ' ') n (strtok ' ' s).2 := rfl
      rw [copyTokens, behind]
      cases cut : strtok ' ' s with
      | mk token more =>
          cases token with
          | none =>
              rw [(next_none cut).1]
              constructor
              · intro copied
                cases copied
              · rintro ⟨many, _⟩
                exact absurd many (by simp)
          | some w =>
              simp only [split_next cut, List.length_cons, Nat.add_le_add_iff_right, List.take_succ_cons,
                List.forall_mem_cons, strcpy, Nat.lt_succ_iff]
              constructor
              · intro copied
                obtain ⟨u, first, copied⟩ := ok_of_bind copied
                obtain ⟨⟨us, left⟩, later, copied⟩ := ok_of_bind copied
                cases copied
                split at first <;> cases first
                obtain ⟨many, fit, rfl, rfl⟩ := ih.mp later
                exact ⟨many, ⟨by assumption, fit⟩, rfl, rfl⟩
              · rintro ⟨many, ⟨short, fit⟩, rfl, rfl⟩
                rw [if_pos short]
                simp only [bind, Except.bind, ih.mpr ⟨many, fit, rfl, rfl⟩, pure, Except.pure]

/-- A token that is there and fits. -/
theorem strcpy_iff {size : ℕ} {token : Option Text} {w : Text} :
    strcpy (size + 1) token = .ok w ↔ token = some w ∧ w.length ≤ size := by
  cases token with
  | none =>
      constructor
      · intro copied
        cases copied
      · rintro ⟨impossible, _⟩
        cases impossible
  | some v =>
      simp only [strcpy, Nat.lt_succ_iff, Option.some.injEq]
      constructor
      · intro copied
        split at copied <;> cases copied
        exact ⟨rfl, by assumption⟩
      · rintro ⟨rfl, short⟩
        exact if_pos short

/-- One word, copied to a buffer of its own. -/
theorem copyWord_iff {size : ℕ} {s w : Text} :
    strcpy (size + 1) (strtok ' ' s).1 = .ok w ↔
      (split (· = ' ') s)[0]? = some w ∧ w.length ≤ size := by
  rw [strcpy_iff]
  cases cut : strtok ' ' s with
  | mk token rest =>
      cases token with
      | none => rw [(next_none cut).1]; rfl
      | some v => rw [split_next cut]; rfl

section Skipped
variable {size n k : ℕ} {s : Text}

/-- The same, from behind the first `k` words. -/
theorem copyList_iff {rest : Text} {ws : List Text} :
    copyTokens (size + 1) n (skip (· = ' ') k s) = .ok (ws, rest) ↔ n ≤ (split (· = ' ') s).length - k ∧
      (∀ w ∈ ((split (· = ' ') s).drop k).take n, w.length ≤ size) ∧ ws = ((split (· = ' ') s).drop k).take n ∧
        rest = skip (· = ' ') (k + n) s := by
  rw [copyTokens_iff, split_skip, List.length_drop, skip_add]

theorem copyWord_skip_iff {w : Text} : strcpy (size + 1) (strtok ' ' (skip (· = ' ') k s)).1 = .ok w ↔
    (split (· = ' ') s)[k]? = some w ∧ w.length ≤ size := by
  rw [copyWord_iff, split_skip, List.getElem?_drop, Nat.add_zero]

theorem strtok_skip (k : ℕ) (s : Text) : (strtok ' ' (skip (· = ' ') k s)).2 = skip (· = ' ') (k + 1) s :=
  (skip_add _ k 1 s).symm

theorem take_two {ws : List Text} {a b : Text} (first : ws[k]? = some a) (second : ws[k + 1]? = some b) :
    (ws.drop k).take 2 = [a, b] := by
  obtain ⟨bound, rfl⟩ := List.getElem?_eq_some_iff.mp first
  obtain ⟨bound', rfl⟩ := List.getElem?_eq_some_iff.mp second
  rw [List.drop_eq_getElem_cons bound, List.drop_eq_getElem_cons bound']
  rfl

end Skipped

def isInt (i : ℤ) : Prop := -(INT_MAX + 1) ≤ i ∧ i ≤ INT_MAX

theorem scanCounter_iff {s rest : Text} {i : ℤ} :
    scanCounter s = .ok (i, rest) ↔ scanInt s = some (i, rest) ∧ isInt i := by
  rw [scanCounter, isInt]
  cases scanInt s with
  | none => simp
  | some r =>
      obtain ⟨j, more⟩ := r
      simp only [Option.some.injEq, Prod.mk.injEq]
      constructor
      · intro read
        split at read <;> cases read
        exact ⟨⟨rfl, rfl⟩, by assumption⟩
      · rintro ⟨⟨rfl, rfl⟩, range⟩
        exact if_pos range

/-- The words behind the counters: as many as `hops` asks for, none longer than its buffer. -/
structure Supplied (hops : ℕ) (words : List Text) : Prop where
  enough : 4 * hops + 2 ≤ words.length
  stations : ∀ w ∈ words.take hops, w.length ≤ 60
  address : ∀ w ∈ (words.drop hops).take hops, w.length ≤ 54
  routes : ∀ w ∈ (words.drop (2 * hops)).take hops, w.length ≤ 60
  time : ∀ w ∈ (words.drop (3 * hops)).take hops, w.length ≤ 5
  ends : ∀ w ∈ (words.drop (4 * hops)).take 2, w.length ≤ 60

theorem scanLast_iff {current : ℤ} {s : Text} :
    (∃ i, scanLast current s = .ok i) ↔ ∀ i rest, scanInt s = some (i, rest) → isInt i := by
  constructor
  · rintro ⟨i, read⟩ j rest scanned
    rw [scanLast, scanned] at read
    cases counter : scanCounter s with
    | error fault =>
        rw [counter] at read
        cases read
    | ok r =>
        obtain ⟨same, range⟩ := scanCounter_iff.mp (counter : scanCounter s = .ok (r.1, r.2))
        rw [scanned] at same
        cases same
        exact range
  · intro range
    cases scanned : scanInt s with
    | none =>
        refine ⟨current, ?_⟩
        rw [scanLast, scanned]
        rfl
    | some r =>
        exact ⟨r.1, scanLast_ok (scanCounter_iff.mpr ⟨scanned, range r.1 r.2 scanned⟩)⟩

/-- A text that `load_payload` can read: two numbers in front, and a third or none, then the words that
the second of them asks for, then a start time before a semicolon or the end. -/
def Legible (s : Text) : Prop :=
  ∃ found hops r₁ r₂, scanInt s = some (found, r₁) ∧ scanInt r₁ = some (hops, r₂) ∧
    isInt found ∧ isInt hops ∧ (∀ current r₃, scanInt r₂ = some (current, r₃) → isInt current) ∧
    Supplied hops.toNat ((split (· = ' ') s).drop 3) ∧
    ∃ start_time rest, strtok ';' (skip (· = ' ') (4 * hops.toNat + 5) s) = (some start_time, rest) ∧
      start_time.length ≤ 5

/-- The loops and the last three copies, from the words behind the counters on. -/
theorem copies_iff {n : ℕ} {t : Text} : (∃ stations address routes time t₁ t₂ t₃ t₄ destination source start_time,
      copyTokens MAX_NAME_LENGTH n t = .ok (stations, t₁) ∧
      copyTokens (MAX_PORT + INET6_ADDRSTRLEN + 1) n t₁ = .ok (address, t₂) ∧
      copyTokens MAX_NAME_LENGTH n t₂ = .ok (routes, t₃) ∧ copyTokens MAX_TIMESTRING n t₃ = .ok (time, t₄) ∧
      strcpy MAX_NAME_LENGTH (strtok ' ' t₄).1 = .ok destination ∧
      strcpy MAX_NAME_LENGTH (strtok ' ' (strtok ' ' t₄).2).1 = .ok source ∧
      strcpy MAX_TIMESTRING (strtok ';' (strtok ' ' (strtok ' ' t₄).2).2).1 = .ok start_time) ↔
    Supplied n (split (· = ' ') t) ∧ ∃ start_time rest,
      strtok ';' (skip (· = ' ') (4 * n + 2) t) = (some start_time, rest) ∧ start_time.length ≤ 5 := by
  have two : n + n = 2 * n := by omega
  have three : 2 * n + n = 3 * n := by omega
  have four : 3 * n + n = 4 * n := by omega
  constructor
  · rintro ⟨stations, address, routes, time, t₁, t₂, t₃, t₄, destination, source, start_time, copied₁,
      copied₂, copied₃, copied₄, copied₅, copied₆, copied₇⟩
    obtain ⟨many₁, fit₁, -, rfl⟩ := copyTokens_iff.mp copied₁
    obtain ⟨many₂, fit₂, -, rfl⟩ := copyList_iff.mp copied₂
    rw [two] at copied₃
    obtain ⟨many₃, fit₃, -, rfl⟩ := copyList_iff.mp copied₃
    rw [three] at copied₄
    obtain ⟨many₄, fit₄, -, rfl⟩ := copyList_iff.mp copied₄
    rw [four] at copied₅ copied₆ copied₇
    rw [strtok_skip] at copied₆ copied₇
    rw [strtok_skip] at copied₇
    obtain ⟨there₅, short₅⟩ := copyWord_skip_iff.mp copied₅
    obtain ⟨there₆, short₆⟩ := copyWord_skip_iff.mp copied₆
    obtain ⟨token, short₇⟩ := strcpy_iff.mp copied₇
    have bound := (List.getElem?_eq_some_iff.mp there₆).1
    refine ⟨⟨by omega, fit₁, fit₂, fit₃, fit₄, ?_⟩, start_time, _, Prod.ext token rfl, short₇⟩
    rw [take_two there₅ there₆, List.forall_mem_cons, List.forall_mem_singleton]
    exact ⟨short₅, short₆⟩
  · rintro ⟨supplied, start_time, rest, token, short⟩
    have many := supplied.enough
    obtain ⟨destination, there₅⟩ : ∃ w, (split (· = ' ') t)[4 * n]? = some w :=
      ⟨_, List.getElem?_eq_getElem (by omega)⟩
    obtain ⟨source, there₆⟩ : ∃ w, (split (· = ' ') t)[4 * n + 1]? = some w :=
      ⟨_, List.getElem?_eq_getElem (by omega)⟩
    have ends := supplied.ends
    rw [take_two there₅ there₆, List.forall_mem_cons, List.forall_mem_singleton] at ends
    have copied₂ := copyList_iff.mpr ⟨(by omega : n ≤ (split (· = ' ') t).length - n), supplied.address, rfl, rfl⟩
    have copied₃ := copyList_iff.mpr ⟨(by omega : n ≤ (split (· = ' ') t).length - 2 * n), supplied.routes, rfl, rfl⟩
    have copied₄ := copyList_iff.mpr ⟨(by omega : n ≤ (split (· = ' ') t).length - 3 * n), supplied.time, rfl, rfl⟩
    rw [two] at copied₂
    rw [three] at copied₃
    rw [four] at copied₄
    refine ⟨_, _, _, _, _, _, _, _, destination, source, start_time,
      copyTokens_iff.mpr ⟨by omega, supplied.stations, rfl, rfl⟩, copied₂, copied₃, copied₄,
      copyWord_skip_iff.mpr ⟨there₅, ends.1⟩, ?_, ?_⟩
    · rw [strtok_skip]
      exact copyWord_skip_iff.mpr ⟨there₆, ends.2⟩
    · rw [strtok_skip, strtok_skip, token]
      exact strcpy_iff.mpr ⟨rfl, short⟩

/-- `load_payload` survives exactly the legible texts, whatever `current` is before. -/
theorem load_payload_survives_iff (payload_string : Text) (current : ℤ) :
    (∃ p, load_payload payload_string current = .ok p) ↔ Legible (strdup payload_string) := by
  constructor
  · rintro ⟨p, loaded⟩
    simp only [load_payload] at loaded
    obtain ⟨⟨found, r₁⟩, readFound, loaded⟩ := ok_of_bind loaded
    obtain ⟨⟨hops, r₂⟩, readHops, loaded⟩ := ok_of_bind loaded
    obtain ⟨counter, readCurrent, loaded⟩ := ok_of_bind loaded
    obtain ⟨⟨stations, t₁⟩, copied₁, loaded⟩ := ok_of_bind loaded
    obtain ⟨⟨address, t₂⟩, copied₂, loaded⟩ := ok_of_bind loaded
    obtain ⟨⟨routes, t₃⟩, copied₃, loaded⟩ := ok_of_bind loaded
    obtain ⟨⟨time, t₄⟩, copied₄, loaded⟩ := ok_of_bind loaded
    obtain ⟨destination, copied₅, loaded⟩ := ok_of_bind loaded
    obtain ⟨source, copied₆, loaded⟩ := ok_of_bind loaded
    obtain ⟨start_time, copied₇, _⟩ := ok_of_bind loaded
    obtain ⟨scanned₁, int₁⟩ := scanCounter_iff.mp readFound
    obtain ⟨scanned₂, int₂⟩ := scanCounter_iff.mp readHops
    have int₃ := scanLast_iff.mp ⟨counter, readCurrent⟩
    obtain ⟨supplied, start⟩ := copies_iff.mp ⟨stations, address, routes, time, t₁, t₂, t₃, t₄, destination,
      source, start_time, copied₁, copied₂, copied₃, copied₄, copied₅, copied₆, copied₇⟩
    refine ⟨found, hops, r₁, r₂, scanned₁, scanned₂, int₁, int₂, int₃, ?_, ?_⟩
    · rw [← split_skip]
      exact supplied
    · rw [Nat.add_comm (4 * hops.toNat), show 5 + 4 * hops.toNat = 3 + (4 * hops.toNat + 2) by omega, skip_add]
      exact start
  · rintro ⟨found, hops, r₁, r₂, scanned₁, scanned₂, int₁, int₂, int₃, supplied, start⟩
    rw [← split_skip] at supplied
    rw [show 4 * hops.toNat + 5 = 3 + (4 * hops.toNat + 2) by omega, skip_add] at start
    obtain ⟨stations, address, routes, time, t₁, t₂, t₃, t₄, destination, source, start_time, copied₁,
      copied₂, copied₃, copied₄, copied₅, copied₆, copied₇⟩ := copies_iff.mpr ⟨supplied, start⟩
    have readFound := scanCounter_iff.mpr ⟨scanned₁, int₁⟩
    have readHops := scanCounter_iff.mpr ⟨scanned₂, int₂⟩
    obtain ⟨counter, readCurrent⟩ : ∃ i, scanLast current r₂ = .ok i := scanLast_iff.mpr int₃
    have third : (strtok ' ' (strtok ' ' (strtok ' ' (strdup payload_string)).2).2).2 =
        skip (· = ' ') 3 (strdup payload_string) := rfl
    refine ⟨⟨found, hops, counter, stations, address, routes, time, destination, source, start_time⟩, ?_⟩
    simp only [load_payload, readFound, readHops, readCurrent, third, copied₁, copied₂, copied₃, copied₄,
      copied₅, copied₆, copied₇, bind, Except.bind, pure, Except.pure]

/-- The third number is not needed. -/
example : (load_payload "0 0 x StationB StationA 08:00;".toList 7).map PAYLOAD.current = .ok 7 := by decide +kernel

/-- A text that is no payload, one that has been cut off, and one with a name that is too long. -/
theorem datagrams_that_fault : load_payload "hello".toList = .error .unset ∧
    load_payload "1 2 1 StationA StationB 127.0.0.1:4002".toList = .error .null ∧
    load_payload ("0 1 1 ".toList ++ List.replicate 61 'S' ++ " 127.0.0.1:4002 ... ... StationB StationA 08:00;".toList) =
      .error .overflow := by
  refine ⟨?_, ?_, ?_⟩ <;> decide +kernel

end TransitNet
