import TransitNet.Payload
import Mathlib.Tactic.Ring

/-! Round trips of the wire format. Both encodings are the three counters and the
same words, with spaces between them; they differ only in how many spaces. Either
decoder counts words and ignores how many spaces part them, except before the
start time, where both encodings put exactly one. -/
namespace TransitNet
open Words

/-- A payload that the C codec can carry. Its strings may hold tabs and semicolons,
and its start time spaces. -/
structure PAYLOAD.Loadable (p : PAYLOAD) : Prop where
  sized : p.Sized
  found : 0 ≤ p.found ∧ p.found ≤ INT_MAX
  hops : 0 ≤ p.hops ∧ p.hops ≤ INT_MAX
  current : 0 ≤ p.current ∧ p.current ≤ INT_MAX
  stations : ∀ s ∈ p.stations, Token ' ' 60 s
  address : ∀ s ∈ p.address, Token ' ' 54 s
  routes : ∀ s ∈ p.routes, Token ' ' 60 s
  time : ∀ s ∈ p.time, Token ' ' 5 s
  destination : Token ' ' 60 p.destination
  source : Token ' ' 60 p.source
  start_time : Token ';' 5 p.start_time

/-- All fields behind the counters, in the order in which both encoders write them. -/
def PAYLOAD.fields (p : PAYLOAD) : List Text :=
  p.stations ++ p.address ++ p.routes ++ p.time ++ [p.destination, p.source, p.start_time]

/-- What parts two fields for the Python decoder. -/
def parts (c : Char) : Bool := whitespace c || c = ';'

/-- A payload that the Python codec can carry. Its words may have any length, and hold the character that
ends a C string. -/
structure PAYLOAD.Legible (p : PAYLOAD) : Prop where
  sized : p.Sized
  found : 0 ≤ p.found
  current : 0 ≤ p.current
  fields : ∀ s ∈ p.fields, Word parts s

theorem parts_white {c : Char} (h : parts c = false) : whitespace c = false :=
  (Bool.or_eq_false_iff.mp h).1

theorem breaks_parts {c : Char} (h : breaks c = false) : parts c = false :=
  (Bool.or_eq_false_iff.mp h).1

theorem PAYLOAD.Sized.hops_nonneg {p : PAYLOAD} (h : p.Sized) : 0 ≤ p.hops := by
  have count := h.stations
  omega

/-! ### Texts in front of a space -/

/-- The text `rest` begins with a space. -/
def Spaced (rest : Text) : Prop := ∃ r, rest = ' ' :: r

theorem spaced_append_spaced {rest : Text} (h : Spaced rest) (ws : List Text) :
    Spaced (spaced ' ' ws ++ rest) := by
  cases ws with
  | nil => exact h
  | cons w ws => exact ⟨_, rfl⟩

theorem strtok_space (s : Text) : strtok ' ' (' ' :: s) = strtok ' ' s := next_sep (by decide) s

theorem strtok_token {delim : Char} {limit : ℕ} {w : Text} (hw : Token delim limit w) (s : Text) :
    strtok delim (w ++ delim :: s) = (some w, s) := next_word hw.delimited (decide_eq_true rfl) s

/-- The copy loops read any sequence of tokens, wherever the cursor stands among
the spaces in front of the first. -/
theorem copyTokens_spaced (size : ℕ) {limit : ℕ} (fits : limit < size) {ws : List Text}
    (clean : ∀ w ∈ ws, Token ' ' limit w) {s rest : Text} (spaces : Spaced rest)
    (cursor : strtok ' ' s = strtok ' ' (spaced ' ' ws ++ rest)) :
    ∃ s', copyTokens size ws.length s = .ok (ws, s') ∧ strtok ' ' s' = strtok ' ' rest := by
  induction ws generalizing s with
  | nil => exact ⟨s, rfl, cursor⟩
  | cons w ws ih =>
      have hw := clean w List.mem_cons_self
      obtain ⟨r, more⟩ := spaced_append_spaced spaces ws
      have first : strtok ' ' s = (some w, r) := by
        rw [cursor, spaced_cons, List.cons_append, strtok_space, List.append_assoc, more,
          strtok_token hw]
      have behind : strtok ' ' r = strtok ' ' (spaced ' ' ws ++ rest) := by rw [more, strtok_space]
      obtain ⟨s', copied, left⟩ := ih (fun u member => clean u (List.mem_cons_of_mem w member)) behind
      refine ⟨s', ?_, left⟩
      rw [List.length_cons, copyTokens]
      simp only [first, strcpy_ok hw fits, copied, bind, Except.bind, pure, Except.pure]

theorem join_cons (w : Text) (ws : List Text) : join (w :: ws) = w ++ spaced ' ' ws := by
  induction ws generalizing w with
  | nil => simp [join, List.intercalate]
  | cons u us ih =>
      have tail := ih u
      simp only [join, List.intercalate, List.intersperse_cons_cons, List.flatten_cons] at tail ⊢
      rw [tail]
      simp only [spaced_cons, List.singleton_append]

theorem split_space (s : Text) : split whitespace (' ' :: s) = split whitespace s :=
  split_sep (by decide) s

theorem mem_spaced {c : Char} {ws : List Text} (h : c ∈ spaced ' ' ws) : c = ' ' ∨ ∃ w ∈ ws, c ∈ w := by
  obtain ⟨w, member, inside⟩ := List.mem_flatMap.mp h
  rcases List.mem_cons.mp inside with rfl | letter
  · exact .inl rfl
  · exact .inr ⟨w, member, letter⟩

/-! ### The two encodings -/

section Encodings
variable {p : PAYLOAD}

/-- Everything behind the counters, up to the semicolon, as the C station writes it. -/
def PAYLOAD.body (p : PAYLOAD) : Text :=
  spaced ' ' p.stations ++ (spaced ' ' p.address ++ (spaced ' ' p.routes ++ (spaced ' ' p.time ++
    ' ' :: (p.destination ++ ' ' :: (p.source ++ ' ' :: p.start_time)))))

/-- The same as the Python station writes it. -/
def PAYLOAD.joined (p : PAYLOAD) : Text :=
  ' ' :: (join p.stations ++ ' ' :: (join p.address ++ ' ' :: (join p.routes ++ ' ' ::
    (join p.time ++ ' ' :: (p.destination ++ ' ' :: (p.source ++ ' ' :: p.start_time))))))

def PAYLOAD.header (p : PAYLOAD) (rest : Text) : Text :=
  printInt p.found ++ ' ' :: (printInt p.hops ++ ' ' :: (printInt p.current ++ rest))

theorem readSlots_all {hops : ℤ} {xs : List Text} (h : (xs.length : ℤ) = hops) :
    readSlots hops xs = .ok xs := by
  subst h
  rw [readSlots, if_pos (le_refl _), Int.toNat_natCast, List.take_length]

theorem craft_payload_eq (h : p.Sized) : craft_payload p = .ok (p.header (p.body ++ [';'])) := by
  simp only [craft_payload, readSlots_all h.stations, readSlots_all h.address,
    readSlots_all h.routes, readSlots_all h.time, bind, Except.bind, pure, Except.pure,
    PAYLOAD.header, PAYLOAD.body, List.append_assoc, List.cons_append]

theorem serialize_eq (p : PAYLOAD) : serialize p = p.header (p.joined ++ [';']) := by
  simp only [serialize, PAYLOAD.header, PAYLOAD.joined, List.append_assoc, List.cons_append,
    List.nil_append]

theorem body_eq (p : PAYLOAD) : p.body = spaced ' ' p.fields := by
  simp only [PAYLOAD.body, PAYLOAD.fields, spaced_append, spaced_cons, spaced_nil,
    List.append_assoc, List.append_nil]

/-- With stations on the path the two encodings are one text; with none the
Python station writes four more spaces. -/
theorem PAYLOAD.Sized.joined (h : p.Sized) :
    (p.stations ≠ [] ∧ p.joined = p.body) ∨
      (p.stations = [] ∧ p.joined = ' ' :: ' ' :: ' ' :: ' ' :: p.body) := by
  obtain ⟨found, hops, current, stations, address, routes, time, destination, source, start_time⟩ := p
  obtain ⟨h₁, h₂, h₃, h₄⟩ := h
  simp only at h₁ h₂ h₃ h₄
  cases stations with
  | nil =>
      rw [List.length_nil] at h₁
      obtain rfl := List.length_eq_zero_iff.mp (show address.length = 0 by omega)
      obtain rfl := List.length_eq_zero_iff.mp (show routes.length = 0 by omega)
      obtain rfl := List.length_eq_zero_iff.mp (show time.length = 0 by omega)
      exact .inr ⟨rfl, rfl⟩
  | cons s stations =>
      rw [List.length_cons] at h₁
      obtain ⟨a, address, rfl⟩ := List.exists_cons_of_length_pos (show 0 < address.length by omega)
      obtain ⟨r, routes, rfl⟩ := List.exists_cons_of_length_pos (show 0 < routes.length by omega)
      obtain ⟨t, time, rfl⟩ := List.exists_cons_of_length_pos (show 0 < time.length by omega)
      refine .inl ⟨List.cons_ne_nil _ _, ?_⟩
      simp only [PAYLOAD.joined, PAYLOAD.body, join_cons, spaced_cons, List.cons_append,
        List.append_assoc]

/-! ### The two decoders -/

theorem scanCounter_print {i : ℤ} (range : 0 ≤ i ∧ i ≤ INT_MAX) {rest : Text} (spaces : Spaced rest) :
    scanCounter (printInt i ++ rest) = .ok (i, rest) := by
  obtain ⟨n, rfl⟩ := Int.eq_ofNat_of_zero_le range.1
  obtain ⟨r, rfl⟩ := spaces
  have ends : ∀ c ∈ (' ' :: r).head?, c.isDigit = false := by
    intro c first
    cases first
    decide
  rw [scanCounter, printInt_natCast, scanInt_toDigits n ends]
  exact if_pos ⟨by omega, range.2⟩

theorem scanCounter_some {s rest : Text} {i : ℤ} (read : scanCounter s = .ok (i, rest)) :
    scanInt s = some (i, rest) := by
  rw [scanCounter] at read
  cases scanned : scanInt s with
  | none =>
      rw [scanned] at read
      cases read
  | some r =>
      rw [scanned] at read
      dsimp only at read
      split at read <;> cases read
      rfl

/-- A number that is there is read. -/
theorem scanLast_ok {s rest : Text} {i current : ℤ} (read : scanCounter s = .ok (i, rest)) :
    scanLast current s = .ok i := by
  rw [scanLast, scanCounter_some read, read]
  rfl

theorem scanCounter_space (s : Text) : scanCounter (' ' :: s) = scanCounter s := by
  rw [scanCounter, scanInt_space (by decide), ← scanCounter]

theorem strtok_print {i : ℤ} (range : 0 ≤ i ∧ i ≤ INT_MAX) (s : Text) :
    strtok ' ' (printInt i ++ ' ' :: s) = (some (printInt i), s) := by
  obtain ⟨n, rfl⟩ := Int.eq_ofNat_of_zero_le range.1
  rw [printInt_natCast]
  refine next_word ⟨(toDigits_word n).nonempty, fun c member => ?_⟩ (by decide) s
  exact decide_eq_false (unbroken ((toDigits_word n).clean c member)).2.2.1

theorem printInt_no_nul {i : ℤ} (range : 0 ≤ i ∧ i ≤ INT_MAX) : NUL ∉ printInt i := by
  obtain ⟨n, rfl⟩ := Int.eq_ofNat_of_zero_le range.1
  rw [printInt_natCast]
  exact fun member => (unbroken ((toDigits_word n).clean NUL member)).2.2.2.2 rfl

theorem PAYLOAD.Loadable.header_no_nul (h : p.Loadable) {rest : Text} (clean : NUL ∉ rest) :
    NUL ∉ p.header rest := by
  simp only [PAYLOAD.header, List.mem_append, List.mem_cons, not_or]
  exact ⟨printInt_no_nul h.found, by decide, printInt_no_nul h.hops, by decide,
    printInt_no_nul h.current, clean⟩

/-- `load_payload` reads the fields from any text whose words are those of the C encoding. -/
theorem load_header (h : p.Loadable) {r : Text} (clean : NUL ∉ r)
    (cursor : strtok ' ' r = strtok ' ' (p.body ++ [';'])) :
    load_payload (p.header (' ' :: r)) = .ok p := by
  have copy : strdup (p.header (' ' :: r)) = p.header (' ' :: r) := by
    refine strdup_self (h.header_no_nul ?_)
    simp only [List.mem_cons, not_or]
    exact ⟨by decide, clean⟩
  have ends : Spaced (' ' :: (p.destination ++ ' ' :: (p.source ++ ' ' :: (p.start_time ++ [';'])))) :=
    ⟨_, rfl⟩
  have whole : p.body ++ [';'] = spaced ' ' p.stations ++ (spaced ' ' p.address ++
      (spaced ' ' p.routes ++ (spaced ' ' p.time ++
        ' ' :: (p.destination ++ ' ' :: (p.source ++ ' ' :: (p.start_time ++ [';'])))))) := by
    simp only [PAYLOAD.body, List.append_assoc, List.cons_append]
  have atTime := spaced_append_spaced ends p.time
  have atRoutes := spaced_append_spaced atTime p.routes
  have atAddress := spaced_append_spaced atRoutes p.address
  obtain ⟨s₁, stations, next₁⟩ := copyTokens_spaced MAX_NAME_LENGTH (by decide) h.stations
    atAddress (cursor.trans (by rw [whole]))
  obtain ⟨s₂, address, next₂⟩ := copyTokens_spaced (MAX_PORT + INET6_ADDRSTRLEN + 1)
    (by decide) h.address atRoutes next₁
  obtain ⟨s₃, routes, next₃⟩ := copyTokens_spaced MAX_NAME_LENGTH (by decide) h.routes
    atTime next₂
  obtain ⟨s₄, time, next₄⟩ := copyTokens_spaced MAX_TIMESTRING (by decide) h.time ends next₃
  have destination := next₄.trans ((strtok_space _).trans (strtok_token h.destination _))
  have start_time : strtok ';' (p.start_time ++ [';']) = (some p.start_time, []) :=
    strtok_token h.start_time []
  have count : ∀ {xs : List Text}, (xs.length : ℤ) = p.hops → p.hops.toNat = xs.length := by
    intro xs same
    omega
  have n₁ := count h.sized.stations
  have n₂ := count h.sized.address
  have n₃ := count h.sized.routes
  have n₄ := count h.sized.time
  rw [← n₁] at stations
  rw [← n₂] at address
  rw [← n₃] at routes
  rw [← n₄] at time
  simp only [load_payload, copy, bind, Except.bind, pure, Except.pure]
  simp only [PAYLOAD.header, scanCounter_print h.found ⟨_, rfl⟩, scanCounter_space,
    scanCounter_print h.hops ⟨_, rfl⟩, scanLast_ok ((scanCounter_space _).trans (scanCounter_print h.current ⟨_, rfl⟩)),
    strtok_print h.found, strtok_print h.hops, strtok_print h.current, stations, address, routes,
    time, destination, strcpy_ok h.destination (show 60 < MAX_NAME_LENGTH by decide),
    strtok_token h.source, strcpy_ok h.source (show 60 < MAX_NAME_LENGTH by decide), start_time,
    strcpy_ok h.start_time (show 5 < MAX_TIMESTRING by decide)]

/-- A payload that can be sent on has all three counters. -/
theorem counted_header (h : p.Loadable) {r : Text} (clean : NUL ∉ r) : counted (p.header (' ' :: r)) = true := by
  have copy : strdup (p.header (' ' :: r)) = p.header (' ' :: r) := by
    refine strdup_self (h.header_no_nul ?_)
    simp only [List.mem_cons, not_or]
    exact ⟨by decide, clean⟩
  have found := scanCounter_some (scanCounter_print h.found ⟨printInt p.hops ++ ' ' :: (printInt p.current ++ ' ' :: r), rfl⟩)
  have hops := scanCounter_some ((scanCounter_space _).trans
    (scanCounter_print h.hops ⟨printInt p.current ++ ' ' :: r, rfl⟩))
  have current := scanCounter_some ((scanCounter_space _).trans (scanCounter_print h.current ⟨r, rfl⟩))
  rw [counted, copy, PAYLOAD.header, found, Option.any_some, hops, Option.any_some, current]
  rfl

/-- What a C station puts on the wire. -/
def PAYLOAD.text (p : PAYLOAD) : Text := p.header (p.body ++ [';'])

theorem PAYLOAD.Sized.serialize_text (h : p.Sized) (nonempty : p.stations ≠ []) : serialize p = p.text := by
  rcases h.joined with ⟨_, same⟩ | ⟨none, _⟩
  · rw [serialize_eq, same]
    rfl
  · exact absurd none nonempty

theorem PAYLOAD.Loadable.body_no_nul (h : p.Loadable) : NUL ∉ p.body := by
  have free : ∀ ws : List Text, (∀ w ∈ ws, NUL ∉ w) → NUL ∉ spaced ' ' ws := by
    intro ws clean member
    rcases mem_spaced member with same | ⟨w, inside, letter⟩
    · cases same
    · exact clean w inside letter
  simp only [PAYLOAD.body, List.mem_append, List.mem_cons, not_or]
  exact ⟨free _ fun w member => (h.stations w member).no_nul,
    free _ fun w member => (h.address w member).no_nul,
    free _ fun w member => (h.routes w member).no_nul,
    free _ fun w member => (h.time w member).no_nul, by decide, h.destination.no_nul, by decide,
    h.source.no_nul, by decide, h.start_time.no_nul⟩

theorem PAYLOAD.body_cons (p : PAYLOAD) : ∃ r, p.body = ' ' :: r ∧ r ≠ [] := by
  obtain ⟨r, body⟩ := spaced_append_spaced (spaced_append_spaced (spaced_append_spaced
    (spaced_append_spaced ⟨p.destination ++ ' ' :: (p.source ++ ' ' :: p.start_time), rfl⟩ p.time)
    p.routes) p.address) p.stations
  refine ⟨r, body, ?_⟩
  rintro rfl
  have size := congrArg List.length body
  simp only [List.length_append, List.length_cons, List.length_nil] at size
  omega

/-- The text of a payload, with any spaces more after the counters. -/
def PAYLOAD.wired (p : PAYLOAD) (n : ℕ) : Text := p.header (List.replicate n ' ' ++ p.body ++ [';'])

/-- `strtok` skips the spaces more. -/
theorem PAYLOAD.Loadable.wired_eq (h : p.Loadable) (n : ℕ) : ∃ r, p.wired n = p.header (' ' :: r) ∧ NUL ∉ r ∧
    strtok ' ' r = strtok ' ' (p.body ++ [';']) := by
  obtain ⟨r, body, _⟩ := p.body_cons
  have free := h.body_no_nul
  rw [body, List.mem_cons, not_or] at free
  refine ⟨List.replicate n ' ' ++ (r ++ [';']), ?_, ?_, ?_⟩
  · rw [PAYLOAD.wired, body, ← List.singleton_append, ← List.append_assoc, ← List.replicate_succ',
      List.replicate_succ, List.append_assoc, List.cons_append]
  · simp only [List.mem_append, List.mem_singleton, not_or]
    refine ⟨fun pad => ?_, free.2, by decide⟩
    cases List.eq_of_mem_replicate pad
  · rw [strtok, next_pad (by decide), ← strtok, body, List.cons_append, strtok_space]

/-- A C station reads back what a C station wrote, also with more spaces. -/
theorem PAYLOAD.Loadable.load_wired (h : p.Loadable) (n : ℕ) : load_payload (p.wired n) = .ok p := by
  obtain ⟨r, text, free, cursor⟩ := h.wired_eq n
  rw [text]
  exact load_header h free cursor

theorem PAYLOAD.Loadable.counted_wired (h : p.Loadable) (n : ℕ) : counted (p.wired n) = true := by
  obtain ⟨r, text, free, _⟩ := h.wired_eq n
  rw [text]
  exact counted_header h free

theorem PAYLOAD.Loadable.load (h : p.Loadable) : load_payload p.text = .ok p := h.load_wired 0

/-- The Python station writes four more spaces, or none. -/
theorem PAYLOAD.Sized.serialize_wired (h : p.Sized) : ∃ n, serialize p = p.wired n := by
  rw [serialize_eq]
  rcases h.joined with ⟨_, same⟩ | ⟨_, wider⟩
  · exact ⟨0, by rw [same]; rfl⟩
  · exact ⟨4, by rw [wider]; rfl⟩

theorem ok_of_bind {ε α β : Type} {x : Except ε α} {f : α → Except ε β} {b : β}
    (h : (x >>= f) = .ok b) : ∃ a, x = .ok a ∧ f a = .ok b := by
  cases x with
  | error e => cases h
  | ok a => exact ⟨a, rfl, h⟩

theorem mapM_mem {ε α β : Type} {f : α → Except ε β} {xs : List α} {ys : List β} (h : xs.mapM f = .ok ys) :
    (∀ y ∈ ys, ∃ x ∈ xs, f x = .ok y) ∧ ∀ x ∈ xs, ∃ y ∈ ys, f x = .ok y := by
  induction xs generalizing ys with
  | nil =>
      cases h
      exact ⟨fun y member => absurd member List.not_mem_nil, fun x member => absurd member List.not_mem_nil⟩
  | cons x xs ih =>
      rw [List.mapM_cons] at h
      obtain ⟨y, first, h⟩ := ok_of_bind h
      obtain ⟨rest, later, h⟩ := ok_of_bind h
      cases h
      obtain ⟨back, forth⟩ := ih later
      constructor
      · intro z member
        rcases List.mem_cons.mp member with rfl | old
        · exact ⟨x, List.mem_cons_self, first⟩
        · obtain ⟨a, inside, same⟩ := back z old
          exact ⟨a, List.mem_cons_of_mem x inside, same⟩
      · intro a member
        rcases List.mem_cons.mp member with rfl | old
        · exact ⟨y, List.mem_cons_self, first⟩
        · obtain ⟨z, inside, same⟩ := forth a old
          exact ⟨z, List.mem_cons_of_mem y inside, same⟩

theorem scanCounter_range {s rest : Text} {i : ℤ} (read : scanCounter s = .ok (i, rest)) :
    i ≤ INT_MAX := by
  simp only [scanCounter] at read
  split at read
  · cases read
  · split at read
    · rename_i bounds
      cases read
      exact bounds.2
    · cases read

theorem copyTokens_tokens {size n : ℕ} {s rest : Text} {ws : List Text} (free : NUL ∉ s)
    (read : copyTokens (size + 1) n s = .ok (ws, rest)) :
    ws.length = n ∧ (∀ w ∈ ws, Token ' ' size w) ∧ NUL ∉ rest := by
  induction n generalizing s ws rest with
  | zero =>
      cases read
      exact ⟨rfl, fun w member => absurd member List.not_mem_nil, free⟩
  | succ n ih =>
      simp only [copyTokens] at read
      obtain ⟨copied, first, read⟩ := ok_of_bind read
      obtain ⟨⟨more, rest'⟩, later, read⟩ := ok_of_bind read
      cases read
      obtain ⟨token, behind⟩ := strcpy_strtok free first
      obtain ⟨count, tokens, left⟩ := ih behind later
      refine ⟨by rw [List.length_cons, count], ?_, left⟩
      intro w member
      rcases List.mem_cons.mp member with rfl | old
      · exact token
      · exact tokens w old

theorem scanLast_range {s : Text} {i current : ℤ} (read : scanLast current s = .ok i) :
    i = current ∨ i ≤ INT_MAX := by
  rw [scanLast] at read
  split at read
  · cases read
    exact .inl rfl
  · cases scanned : scanCounter s with
    | error fault =>
        rw [scanned] at read
        cases read
    | ok r =>
        rw [scanned] at read
        cases read
        exact .inr (scanCounter_range scanned)

/-- The counters of a loaded payload are the numbers in front of the text. -/
theorem load_counters {s : Text} (loaded : load_payload s = .ok p) :
    ∃ r₁ r₂, scanCounter (strdup s) = .ok (p.found, r₁) ∧ scanCounter r₁ = .ok (p.hops, r₂) ∧
      scanLast 0 r₂ = .ok p.current := by
  simp only [load_payload] at loaded
  obtain ⟨⟨f, r₁⟩, found, loaded⟩ := ok_of_bind loaded
  obtain ⟨⟨h, r₂⟩, hops, loaded⟩ := ok_of_bind loaded
  obtain ⟨c, current, loaded⟩ := ok_of_bind loaded
  obtain ⟨_, _, loaded⟩ := ok_of_bind loaded
  obtain ⟨_, _, loaded⟩ := ok_of_bind loaded
  obtain ⟨_, _, loaded⟩ := ok_of_bind loaded
  obtain ⟨_, _, loaded⟩ := ok_of_bind loaded
  obtain ⟨_, _, loaded⟩ := ok_of_bind loaded
  obtain ⟨_, _, loaded⟩ := ok_of_bind loaded
  obtain ⟨_, _, loaded⟩ := ok_of_bind loaded
  cases loaded
  exact ⟨r₁, r₂, found, hops, current⟩

/-- A third counter other than zero has been set. -/
theorem counted_of_current {s : Text} (loaded : load_payload s = .ok p) (set : p.current ≠ 0) : counted s = true := by
  obtain ⟨r₁, r₂, found, hops, current⟩ := load_counters loaded
  rw [counted, scanCounter_some found, Option.any_some, scanCounter_some hops, Option.any_some]
  rw [scanLast] at current
  split at current
  · exact absurd (Except.ok.inj current).symm set
  · rename_i third
    rwa [Bool.not_eq_true, Option.isNone_eq_false_iff] at third

theorem load_found {i : ℤ} (range : 0 ≤ i ∧ i ≤ INT_MAX) {rest : Text}
    (loaded : load_payload (printInt i ++ ' ' :: rest) = .ok p) : p.found = i := by
  obtain ⟨r₁, _, found, _, _⟩ := load_counters loaded
  have front : strdup (' ' :: rest) = ' ' :: strdup rest := strdup_append (s := [' ']) (by decide) rest
  rw [strdup_append (printInt_no_nul range), front, scanCounter_print range ⟨_, rfl⟩,
    Except.ok.injEq, Prod.mk.injEq] at found
  exact found.1.symm

theorem craft_payload_found {s : Text} (crafted : craft_payload p = .ok s) :
    ∃ rest, s = printInt p.found ++ ' ' :: rest := by
  simp only [craft_payload] at crafted
  obtain ⟨_, _, crafted⟩ := ok_of_bind crafted
  obtain ⟨_, _, crafted⟩ := ok_of_bind crafted
  obtain ⟨_, _, crafted⟩ := ok_of_bind crafted
  obtain ⟨_, _, crafted⟩ := ok_of_bind crafted
  cases crafted
  simp only [List.append_assoc, List.cons_append]
  exact ⟨_, rfl⟩

/-- Whatever text `load_payload` accepts, it holds a payload that can be sent on. -/
theorem load_accepts {s : Text} (loaded : load_payload s = .ok p) (found : 0 ≤ p.found)
    (hops : 0 ≤ p.hops) (current : 0 ≤ p.current) : p.Loadable := by
  have behind : ∀ {t : Text}, NUL ∉ t → NUL ∉ (strtok ' ' t).2 := by
    intro t free member
    cases cut : strtok ' ' t with
    | mk token rest =>
        rw [cut] at member
        cases token with
        | none =>
            rw [strtok, next] at cut
            split at cut <;> cases cut
            cases member
        | some w => exact free ((next_some cut).2.2 NUL member)
  have free := strdup_no_nul s
  simp only [load_payload] at loaded
  obtain ⟨⟨f, r₁⟩, readFound, loaded⟩ := ok_of_bind loaded
  obtain ⟨⟨h, r₂⟩, readHops, loaded⟩ := ok_of_bind loaded
  obtain ⟨c, readCurrent, loaded⟩ := ok_of_bind loaded
  obtain ⟨⟨stations, r₄⟩, readStations, loaded⟩ := ok_of_bind loaded
  obtain ⟨⟨address, r₅⟩, readAddress, loaded⟩ := ok_of_bind loaded
  obtain ⟨⟨routes, r₆⟩, readRoutes, loaded⟩ := ok_of_bind loaded
  obtain ⟨⟨time, r₇⟩, readTime, loaded⟩ := ok_of_bind loaded
  obtain ⟨destination, readDestination, loaded⟩ := ok_of_bind loaded
  obtain ⟨source, readSource, loaded⟩ := ok_of_bind loaded
  obtain ⟨start_time, readStart, loaded⟩ := ok_of_bind loaded
  cases loaded
  obtain ⟨count₁, tokens₁, free⟩ := copyTokens_tokens (behind (behind (behind free))) readStations
  obtain ⟨count₂, tokens₂, free⟩ := copyTokens_tokens free readAddress
  obtain ⟨count₃, tokens₃, free⟩ := copyTokens_tokens free readRoutes
  obtain ⟨count₄, tokens₄, free⟩ := copyTokens_tokens free readTime
  obtain ⟨token₅, free⟩ := strcpy_strtok free readDestination
  obtain ⟨token₆, free⟩ := strcpy_strtok free readSource
  obtain ⟨token₇, _⟩ := strcpy_strtok free readStart
  simp only at found hops current
  have bound : c ≤ INT_MAX := by
    rcases scanLast_range readCurrent with zero | bound
    · rw [zero]
      decide
    · exact bound
  exact
    { sized := ⟨by simp only; omega, by simp only; omega, by simp only; omega, by simp only; omega⟩
      found := ⟨found, scanCounter_range readFound⟩
      hops := ⟨hops, scanCounter_range readHops⟩
      current := ⟨current, bound⟩
      stations := tokens₁
      address := tokens₂
      routes := tokens₃
      time := tokens₄
      destination := token₅
      source := token₆
      start_time := token₇ }

/-- What is read from a text that begins with three zeros has no stations. -/
theorem load_zeros {rest : Text} (loaded : load_payload ("0 0 0 ".toList ++ rest) = .ok p) :
    p.Loadable ∧ p.stations = [] ∧ p.address = [] := by
  have front : "0 0 0 ".toList = ['0', ' ', '0', ' ', '0', ' '] := by decide
  have scan : ∀ s : Text, scanCounter ('0' :: ' ' :: s) = .ok (0, ' ' :: s) := fun s =>
    scanCounter_print (i := 0) (by decide) ⟨s, rfl⟩
  obtain ⟨r₁, r₂, found, hops, current⟩ := load_counters loaded
  rw [strdup_append (by decide), front] at found
  simp only [List.cons_append, List.nil_append, scan, Except.ok.injEq, Prod.mk.injEq] at found
  rw [← found.2, scanCounter_space, scan, Except.ok.injEq, Prod.mk.injEq] at hops
  rw [← hops.2, scanLast_ok ((scanCounter_space _).trans (scan _)), Except.ok.injEq] at current
  have loadable := load_accepts loaded (by omega) (by omega) (by omega)
  have stations := loadable.sized.stations
  have address := loadable.sized.address
  exact ⟨loadable, List.eq_nil_of_length_eq_zero (by omega), List.eq_nil_of_length_eq_zero (by omega)⟩

theorem copyTokens_count {size n : ℕ} {s rest : Text} {ws : List Text}
    (read : copyTokens size n s = .ok (ws, rest)) : ws.length = n := by
  induction n generalizing s ws rest with
  | zero =>
      cases read
      rfl
  | succ n ih =>
      simp only [copyTokens] at read
      obtain ⟨copied, _, read⟩ := ok_of_bind read
      obtain ⟨⟨more, rest'⟩, later, read⟩ := ok_of_bind read
      cases read
      rw [List.length_cons, ih later]

/-- Whatever payload is loaded, with a negative counter even, can be crafted again. -/
theorem load_crafts {s : Text} (loaded : load_payload s = .ok p) (found : ℤ) :
    ∃ text, craft_payload { p with found := found } = .ok text := by
  simp only [load_payload] at loaded
  obtain ⟨⟨f, r₁⟩, _, loaded⟩ := ok_of_bind loaded
  obtain ⟨⟨h, r₂⟩, _, loaded⟩ := ok_of_bind loaded
  obtain ⟨c, _, loaded⟩ := ok_of_bind loaded
  obtain ⟨⟨stations, r₄⟩, readStations, loaded⟩ := ok_of_bind loaded
  obtain ⟨⟨address, r₅⟩, readAddress, loaded⟩ := ok_of_bind loaded
  obtain ⟨⟨routes, r₆⟩, readRoutes, loaded⟩ := ok_of_bind loaded
  obtain ⟨⟨time, r₇⟩, readTime, loaded⟩ := ok_of_bind loaded
  obtain ⟨_, _, loaded⟩ := ok_of_bind loaded
  obtain ⟨_, _, loaded⟩ := ok_of_bind loaded
  obtain ⟨_, _, loaded⟩ := ok_of_bind loaded
  cases loaded
  have read : ∀ {xs : List Text}, xs.length = h.toNat → readSlots h xs = .ok (xs.take h.toNat) := by
    intro xs count
    rw [readSlots, if_pos (by omega)]
  simp only [craft_payload, read (copyTokens_count readStations), read (copyTokens_count readAddress),
    read (copyTokens_count readRoutes), read (copyTokens_count readTime), bind, Except.bind]
  exact ⟨_, rfl⟩

theorem PAYLOAD.length_le_text (p : PAYLOAD) : p.stations.length ≤ p.text.length := by
  have stations := length_spaced ' ' p.stations
  simp only [PAYLOAD.text, PAYLOAD.header, PAYLOAD.body, List.length_append, List.length_cons]
  omega

/-- A payload in a text that fits the receive buffer has few stations. -/
theorem PAYLOAD.Sized.hops_lt (h : p.Sized) (short : p.text.length < MAXDATASIZE) :
    p.hops < MAXDATASIZE := by
  have size := p.length_le_text
  have count := h.stations
  omega

theorem decimal_digit {c : Char} (h : c.isDigit = true) : decimal? c = some (c.toNat - 48) := by
  have range : 48 ≤ c.toNat ∧ c.toNat ≤ 57 := by
    simp only [Char.isDigit, Bool.and_eq_true, decide_eq_true_eq] at h
    exact h
  rw [decimal?, decimalZeros, List.find?_cons_of_pos (by rw [decide_eq_true_eq]; omega)]
  rfl

theorem intOf_digits {ds : Text} (digits : ∀ c ∈ ds, c.isDigit = true) :
    intOf ds = Nat.ofDigitChars 10 ds 0 := by
  have fold : ∀ (ds : Text) (k : ℕ), (∀ c ∈ ds, c.isDigit = true) →
      ds.foldl (fun (n : ℤ) c => 10 * n + (decimal? c).getD 0) (k : ℤ) = Nat.ofDigitChars 10 ds k := by
    intro ds
    induction ds with
    | nil => intro k _; rfl
    | cons d ds ih =>
        intro k all
        have step := ih (10 * k + (d.toNat - 48)) fun c member => all c (List.mem_cons_of_mem d member)
        rw [List.foldl_cons, decimal_digit (all d List.mem_cons_self), Nat.ofDigitChars_cons]
        exact step
  exact fold ds 0 digits

theorem intOf_toDigits (n : ℕ) : intOf (Nat.toDigits 10 n) = n := by
  rw [intOf_digits fun _ => toDigits_digit, Nat.ofDigitChars_ten_toDigits]

theorem digit_decimal {c : Char} (h : c.isDigit = true) : isdecimal c = true := by
  rw [isdecimal, decimal_digit h]
  rfl

theorem matchCounter_print {i : ℤ} (nonneg : 0 ≤ i) (rest : Text) :
    matchCounter (printInt i ++ ' ' :: rest) = some (i, rest) := by
  obtain ⟨n, rfl⟩ := Int.eq_ofNat_of_zero_le nonneg
  have digits : ∀ c ∈ Nat.toDigits 10 n, isdecimal c = true := fun _ member =>
    digit_decimal (toDigits_digit member)
  have space : isdecimal ' ' = false := by decide
  rw [printInt_natCast, matchCounter, List.takeWhile_append_of_pos digits,
    List.dropWhile_append_of_pos digits]
  simp only [List.takeWhile_cons, List.dropWhile_cons, space, Bool.false_eq_true, if_false,
    List.append_nil, List.isEmpty_iff]
  rw [if_neg Nat.toDigits_ne_nil, intOf_toDigits]

/-- The first character may be a semicolon. -/
theorem matchBody_cons {c : Char} {X : Text} (semi : ';' ∉ X) (newline : '\n' ∉ c :: X) :
    matchBody (c :: X ++ [';']) = some (c :: X) := by
  have letters := all_ne semi
  simp only [matchBody, List.cons_append, List.takeWhile_append_of_pos letters,
    List.dropWhile_append_of_pos letters]
  rw [if_neg]
  · simp
  · simpa using newline

theorem matchBody_sealed {X : Text} (nonempty : X ≠ []) (semi : ';' ∉ X) (newline : '\n' ∉ X) :
    matchBody (X ++ [';']) = some X := by
  cases X with
  | nil => exact absurd rfl nonempty
  | cons c X => exact matchBody_cons (fun member => semi (List.mem_cons_of_mem c member)) newline

theorem pyIndex_nat {α : Type*} {xs : List α} {k : ℕ} {x : α} (h : xs[k]? = some x) :
    pyIndex xs (k : ℤ) = .ok x := by
  have plain : ¬ ((k : ℤ) < 0) := by omega
  simp only [pyIndex, if_neg plain, Int.toNat_natCast, h]

theorem pyIndex_back {α : Type*} (front : List α) (x : α) (back : List α) :
    pyIndex (front ++ x :: back) (-((back.length : ℤ) + 1)) = .ok x := by
  have negative : -((back.length : ℤ) + 1) < 0 := by omega
  have place : -((back.length : ℤ) + 1) + (front ++ x :: back).length = front.length := by
    rw [List.length_append, List.length_cons]
    omega
  have plain : ¬ ((front.length : ℤ) < 0) := by omega
  simp only [pyIndex, if_pos negative, place, if_neg plain, Int.toNat_natCast]
  rw [List.getElem?_append_right (Nat.le_refl _), Nat.sub_self]
  rfl

/-- The slices that `deserialize` takes of the words are the four lists. -/
theorem PAYLOAD.Sized.slices (h : p.Sized) :
    p.fields.take p.hops.toNat = p.stations ∧
      (p.fields.take (2 * p.hops.toNat)).drop p.hops.toNat = p.address ∧
      (p.fields.take (3 * p.hops.toNat)).drop (2 * p.hops.toNat) = p.routes ∧
      (p.fields.take (4 * p.hops.toNat)).drop (3 * p.hops.toNat) = p.time := by
  obtain ⟨found, hops, current, stations, address, routes, time, destination, source, start_time⟩ := p
  obtain ⟨h₁, h₂, h₃, h₄⟩ := h
  simp only at h₁ h₂ h₃ h₄
  subst h₁
  have slice : ∀ (front mid back : List Text) (k m : ℕ), front.length = k → mid.length = m →
      ((front ++ (mid ++ back)).take (k + m)).drop k = mid := by
    rintro front mid back _ _ rfl rfl
    rw [← List.append_assoc, List.take_left' (by rw [List.length_append]), List.drop_left]
  simp only [PAYLOAD.fields, Int.toNat_natCast]
  refine ⟨?_, ?_, ?_, ?_⟩
  · rw [List.append_assoc, List.append_assoc, List.append_assoc, List.take_left]
  · rw [Nat.two_mul, List.append_assoc, List.append_assoc, List.append_assoc]
    exact slice _ _ _ _ _ rfl (by omega)
  · rw [show 3 * stations.length = 2 * stations.length + stations.length by omega,
      List.append_assoc, List.append_assoc]
    exact slice (stations ++ address) _ _ _ _ (by rw [List.length_append]; omega) (by omega)
  · rw [show 4 * stations.length = 3 * stations.length + stations.length by omega, List.append_assoc]
    exact slice (stations ++ address ++ routes) _ _ _ _
      (by simp only [List.length_append]; omega) (by omega)

theorem pyIndex_ends {α : Type*} (front : List α) (a b c : α) :
    pyIndex (front ++ [a, b, c]) (-3) = .ok a ∧ pyIndex (front ++ [a, b, c]) (-2) = .ok b ∧
      pyIndex (front ++ [a, b, c]) (-1) = .ok c := by
  have two : front ++ [a, b, c] = (front ++ [a]) ++ [b, c] := by
    rw [List.append_assoc, List.singleton_append]
  have one : front ++ [a, b, c] = (front ++ [a, b]) ++ [c] := by
    rw [List.append_assoc, List.cons_append, List.singleton_append]
  exact ⟨pyIndex_back front a [b, c], two ▸ pyIndex_back (front ++ [a]) b [c],
    one ▸ pyIndex_back (front ++ [a, b]) c []⟩

/-- The last three words are what a payload is about. -/
theorem deserialize_words (found : 0 ≤ p.found) (hops : 0 ≤ p.hops) (current : 0 ≤ p.current)
    {rest body : Text}
    (matched : matchBody rest = some body) {front : List Text} {destination source start_time : Text}
    (words : split whitespace body = front ++ [destination, source, start_time]) :
    deserialize (p.header (' ' :: rest)) = .ok { p with
      stations := (split whitespace body).take p.hops.toNat
      address := ((split whitespace body).take (2 * p.hops.toNat)).drop p.hops.toNat
      routes := ((split whitespace body).take (3 * p.hops.toNat)).drop (2 * p.hops.toNat)
      time := ((split whitespace body).take (4 * p.hops.toNat)).drop (3 * p.hops.toNat)
      destination, source, start_time } := by
  obtain ⟨third, second, first⟩ := pyIndex_ends front destination source start_time
  rw [← words] at third second first
  simp only [deserialize, PAYLOAD.header, matchCounter_print found, matchCounter_print hops,
    matchCounter_print current, matched, third, second, first, bind, Except.bind, pure, Except.pure]

/-- `deserialize` reads the fields from any text whose words are the fields. -/
theorem deserialize_fields (sized : p.Sized) (found : 0 ≤ p.found) (current : 0 ≤ p.current) {rest X : Text}
    (matched : matchBody rest = some X) (words : split whitespace X = p.fields) :
    deserialize (p.header (' ' :: rest)) = .ok p := by
  have read := deserialize_words found sized.hops_nonneg current matched words
  obtain ⟨stations, address, routes, time⟩ := sized.slices
  rw [words, stations, address, routes, time] at read
  exact read

/-! ### The Python decoder on either encoding -/

section Words
variable {sep : Char → Bool}

theorem PAYLOAD.body_clean (words : ∀ s ∈ p.fields, Word sep s) {c : Char} (space : c ≠ ' ')
    (bad : sep c = true) : c ∉ p.body := by
  rw [body_eq]
  intro member
  rcases mem_spaced member with same | ⟨w, field, letter⟩
  · exact space same
  · rw [(words w field).clean c letter] at bad
    cases bad

theorem PAYLOAD.split_body (words : ∀ s ∈ p.fields, Word sep s)
    (white : ∀ {c}, sep c = false → whitespace c = false) : split whitespace p.body = p.fields := by
  rw [body_eq]
  exact split_spaced (by decide) fun w member => (words w member).mono white

/-- The counter's own space, then the spaces that the decoders skip. -/
theorem PAYLOAD.padded (words : ∀ s ∈ p.fields, Word sep s)
    (white : ∀ {c}, sep c = false → whitespace c = false) (n : ℕ) : ∃ X, X ≠ [] ∧
    List.replicate n ' ' ++ p.body = ' ' :: X ∧ split whitespace X = p.fields ∧
    ∀ c, c ≠ ' ' → sep c = true → c ∉ X := by
  obtain ⟨r, body, nonempty⟩ := p.body_cons
  refine ⟨List.replicate n ' ' ++ r, ?_, ?_, ?_, ?_⟩
  · exact fun empty => nonempty (List.append_eq_nil_iff.mp empty).2
  · rw [body, ← List.singleton_append, ← List.append_assoc, ← List.cons_append, ← List.replicate_succ,
      List.replicate_succ']
  · have words := PAYLOAD.split_body words white
    rwa [body, split_space, ← split_pad (show whitespace ' ' = true by decide) n] at words
  · intro c space bad member
    rcases List.mem_append.mp member with pad | inside
    · exact space (List.eq_of_mem_replicate pad)
    · exact PAYLOAD.body_clean words space bad (by rw [body]; exact List.mem_cons_of_mem ' ' inside)

end Words

/-- The Python decoder reads the payload from the C encoding, with any spaces more after the counters. -/
theorem PAYLOAD.Legible.deserialized (h : p.Legible) (n : ℕ) : deserialize (p.wired n) = .ok p := by
  obtain ⟨X, nonempty, shape, words, free⟩ := PAYLOAD.padded h.fields parts_white n
  rw [PAYLOAD.wired, shape, List.cons_append]
  exact deserialize_fields h.sized h.found h.current
    (matchBody_sealed nonempty (free ';' (by decide) (by decide)) (free '\n' (by decide) (by decide))) words

theorem PAYLOAD.Legible.serialize (h : p.Legible) : deserialize (serialize p) = .ok p := by
  obtain ⟨n, text⟩ := h.sized.serialize_wired
  rw [text]
  exact h.deserialized n

end Encodings

/-- A payload on its way back to StationA. -/
def backtraced : PAYLOAD where
  found := 1
  hops := 2
  current := 1
  stations := ["StationA".toList, "StationX".toList]
  address := ["127.0.0.1:1002".toList, "127.0.0.1:1003".toList]
  routes := ["...".toList, "A_X".toList]
  time := ["...".toList, "11:45".toList]
  destination := "StationX".toList
  source := "StationA".toList
  start_time := "10:45".toList

/-! ### What a serialized text is about -/

/-- The last three fields hold no space. -/
structure PAYLOAD.Cut (p : PAYLOAD) : Prop where
  destination : ' ' ∉ p.destination
  source : ' ' ∉ p.source
  start_time : ' ' ∉ p.start_time

theorem intOf_nonneg (digits : Text) : 0 ≤ intOf digits := by
  have all : ∀ n : ℤ, 0 ≤ n → 0 ≤ digits.foldl (fun (n : ℤ) c => 10 * n + (decimal? c).getD 0) n := by
    induction digits with
    | nil => exact fun n nonneg => nonneg
    | cons c digits ih =>
        intro n nonneg
        have digit : (0 : ℤ) ≤ ((decimal? c).getD 0 : ℕ) := Int.natCast_nonneg _
        exact ih _ (Int.add_nonneg (Int.mul_nonneg (by decide) nonneg) digit)
  exact all 0 (Int.le_refl 0)

theorem matchCounter_nonneg {s rest : Text} {i : ℤ} (matched : matchCounter s = some (i, rest)) : 0 ≤ i := by
  rw [matchCounter] at matched
  split at matched
  · split at matched
    · cases matched
    · cases matched
      exact intOf_nonneg _
  · cases matched

theorem pyIndex_mem {α : Type*} {xs : List α} {i : ℤ} {x : α} (there : pyIndex xs i = .ok x) : x ∈ xs := by
  unfold pyIndex at there
  generalize (if i < 0 then i + xs.length else i) = j at there
  simp only at there
  split at there
  · cases there
  · split at there
    · rename_i found
      cases there
      exact List.mem_of_getElem? found
    · cases there

/-- What `deserialize` reads: the default payload, or three counters and words of one text. -/
theorem deserialize_ok {data : Text} {p : PAYLOAD} (read : deserialize data = .ok p) : p = defaultPayload ∨
    0 ≤ p.found ∧ 0 ≤ p.current ∧ ∃ rest body, matchBody rest = some body ∧
      p.stations = (split whitespace body).take p.hops.toNat ∧
      p.address = ((split whitespace body).take (2 * p.hops.toNat)).drop p.hops.toNat ∧
      p.routes = ((split whitespace body).take (3 * p.hops.toNat)).drop (2 * p.hops.toNat) ∧
      p.time = ((split whitespace body).take (4 * p.hops.toNat)).drop (3 * p.hops.toNat) ∧
      pyIndex (split whitespace body) (-3) = .ok p.destination ∧
      pyIndex (split whitespace body) (-2) = .ok p.source ∧
      pyIndex (split whitespace body) (-1) = .ok p.start_time := by
  unfold deserialize at read
  split at read
  · cases read
    exact .inl rfl
  rename_i found _ first
  split at read
  · cases read
    exact .inl rfl
  split at read
  · cases read
    exact .inl rfl
  rename_i current rest third
  split at read
  · cases read
    exact .inl rfl
  rename_i body matched
  obtain ⟨destination, one, read⟩ := ok_of_bind read
  obtain ⟨source, two, read⟩ := ok_of_bind read
  obtain ⟨start_time, three, read⟩ := ok_of_bind read
  cases read
  exact .inr ⟨matchCounter_nonneg first, matchCounter_nonneg third, rest, body, matched, rfl, rfl, rfl, rfl,
    one, two, three⟩

/-- What `deserialize` reads, whatever the text. -/
theorem deserialize_cut {data : Text} {p : PAYLOAD} (read : deserialize data = .ok p) : 0 ≤ p.found ∧ p.Cut := by
  rcases deserialize_ok read with rfl | ⟨found, _, _, body, _, _, _, _, _, one, two, three⟩
  · exact ⟨by decide, by decide, by decide, by decide⟩
  · have word : ∀ {w : Text} {i}, pyIndex (split whitespace body) i = .ok w → ' ' ∉ w := by
      intro w i found member
      exact absurd ((mem_split (pyIndex_mem found)).clean ' ' member) (by decide)
    exact ⟨found, word one, word two, word three⟩

/-- Behind the first word, the words of a body hold no semicolon, and neither does the first behind its
first letter. -/
theorem matchBody_words {rest body : Text} (matched : matchBody rest = some body) {w : Text} {ws : List Text}
    (words : split whitespace body = w :: ws) :
    (∃ d v, w = d :: v ∧ ';' ∉ v) ∧ ∀ v ∈ ws, ';' ∉ v := by
  unfold matchBody at matched
  split at matched
  · cases matched
  rename_i c s
  dsimp only at matched
  split at matched
  · cases matched
  cases matched
  have bare : ∀ d ∈ s.takeWhile (· ≠ ';'), d ≠ ';' := by
    intro d member
    have kept := List.mem_takeWhile_imp member
    rwa [decide_eq_true_eq] at kept
  cases letter : whitespace c with
  | true =>
      rw [split_sep letter] at words
      have within : ∀ v ∈ w :: ws, ';' ∉ v := fun v member inside =>
        bare ';' (split_within (words ▸ member) ';' inside) rfl
      have first : Word whitespace w := mem_split (words ▸ List.mem_cons_self)
      obtain ⟨d, v, rfl⟩ := List.exists_cons_of_ne_nil first.nonempty
      refine ⟨⟨d, v, rfl, fun inside => within (d :: v) List.mem_cons_self (List.mem_cons_of_mem d inside)⟩, ?_⟩
      exact fun v member => within v (List.mem_cons_of_mem _ member)
  | false =>
      obtain ⟨v, vs, cut, within⟩ := split_letter letter (s.takeWhile (· ≠ ';'))
      rw [cut] at words
      cases words
      refine ⟨⟨c, v, rfl, fun inside => ?_⟩, fun u member inside => ?_⟩
      · exact bare ';' (within v List.mem_cons_self ';' inside) rfl
      · exact bare ';' (within u (List.mem_cons_of_mem v member) ';' inside) rfl

theorem pyIndex_behind {α : Type*} {x : α} {xs : List α} {i : ℤ} (negative : i < 0) (near : -(xs.length : ℤ) ≤ i) :
    pyIndex (x :: xs) i = pyIndex xs i := by
  obtain ⟨k, place⟩ : ∃ k : ℕ, i + xs.length = k := ⟨(i + xs.length).toNat, by omega⟩
  have next : i + (x :: xs).length = (k + 1 : ℕ) := by
    rw [List.length_cons]
    omega
  simp only [pyIndex, if_pos negative, place, next, Int.toNat_natCast, List.getElem?_cons_succ]
  rw [if_neg (by omega), if_neg (by omega)]

theorem mem_slice {α : Type*} {x y : α} {xs : List α} {k m : ℕ} (member : y ∈ ((x :: xs).take k).drop (m + 1)) :
    y ∈ xs := by
  cases k with
  | zero => cases member
  | succ k =>
      rw [List.take_succ_cons, List.drop_succ_cons] at member
      exact List.mem_of_mem_take (List.mem_of_mem_drop member)

/-- Full lists that have been read off a text are words without a semicolon, but the first may begin with one. -/
theorem deserialize_shape {data : Text} {r : PAYLOAD} (read : deserialize data = .ok r) (sized : r.Sized)
    (long : 1 ≤ r.hops) : 0 ≤ r.current ∧ (∀ u ∈ r.fields, Word whitespace u) ∧
      ∃ d v back, r.fields = (d :: v) :: back ∧ ';' ∉ v ∧ ∀ u ∈ back, ';' ∉ u := by
  rcases deserialize_ok read with rfl | ⟨_, current, rest, body, matched, stations, address, routes, time,
    destination, source, start_time⟩
  · exact absurd long (by decide)
  obtain ⟨n, hops⟩ : ∃ n : ℕ, r.hops.toNat = n + 1 := ⟨(r.hops - 1).toNat, by omega⟩
  have enough : 4 * (n + 1) ≤ (split whitespace body).length := by
    have count := sized.time
    rw [time, List.length_drop, List.length_take, hops] at count
    omega
  obtain ⟨w, ws, words⟩ : ∃ w ws, split whitespace body = w :: ws :=
    List.exists_cons_of_length_pos (by omega)
  obtain ⟨⟨d, v, rfl, front⟩, bare⟩ := matchBody_words matched words
  rw [words, List.length_cons] at enough
  rw [words, hops] at stations address routes time
  rw [words, pyIndex_behind (by decide) (by omega)] at destination source start_time
  obtain ⟨back, fields, within⟩ : ∃ back, r.fields = (d :: v) :: back ∧ ∀ u ∈ back, u ∈ ws := by
    refine ⟨ws.take n ++ r.address ++ r.routes ++ r.time ++ [r.destination, r.source, r.start_time], ?_, ?_⟩
    · rw [PAYLOAD.fields, stations, List.take_succ_cons]
      rfl
    · intro u member
      simp only [List.mem_append, List.mem_cons, List.not_mem_nil, or_false] at member
      rcases member with (((h₁ | h₂) | h₃) | h₄) | rfl | rfl | rfl
      · exact List.mem_of_mem_take h₁
      · exact mem_slice (address ▸ h₂)
      · exact mem_slice (routes ▸ h₃)
      · exact mem_slice (time ▸ h₄)
      · exact pyIndex_mem destination
      · exact pyIndex_mem source
      · exact pyIndex_mem start_time
  refine ⟨current, fun u member => ?_, d, v, back, fields, front, fun u member => bare u (within u member)⟩
  have inside : u ∈ split whitespace body := by
    rw [words]
    rw [fields] at member
    exact List.cons_subset_cons _ within member
  exact mem_split inside

/-- Such words can be written and read again. -/
theorem serialize_shape (full : p.Sized) (long : 1 ≤ p.hops) (found : 0 ≤ p.found) (current : 0 ≤ p.current)
    (clean : ∀ u ∈ p.fields, Word whitespace u) {d : Char} {v : Text} {back : List Text}
    (fields : p.fields = (d :: v) :: back) (front : ';' ∉ v) (bare : ∀ u ∈ back, ';' ∉ u) :
    deserialize (serialize p) = .ok p := by
  have text : p.body = ' ' :: (d :: (v ++ spaced ' ' back)) := by
    rw [body_eq, fields, spaced_cons, List.cons_append]
  have nonempty : p.stations ≠ [] := by
    intro empty
    have count := full.stations
    rw [empty, List.length_nil] at count
    rw [← count] at long
    exact absurd long (by decide)
  rw [serialize_eq, (full.joined.resolve_right fun none => nonempty none.1).2, text, List.cons_append]
  refine deserialize_fields full found current (matchBody_cons ?_ ?_) ?_
  · intro member
    rcases List.mem_append.mp member with first | later
    · exact front first
    · rcases mem_spaced later with space | ⟨u, inside, letter⟩
      · exact absurd space (by decide)
      · exact bare u inside letter
  · exact fun member => PAYLOAD.body_clean clean (c := '\n') (by decide) (by decide)
      (by rw [text]; exact List.mem_cons_of_mem ' ' member)
  · rw [← split_space, ← text]
    exact PAYLOAD.split_body clean fun same => same

/-- Full lists that have been read off a text can be written and read again. -/
theorem deserialize_again {data : Text} {r : PAYLOAD} (read : deserialize data = .ok r) (sized : r.Sized)
    (long : 1 ≤ r.hops) {found : ℤ} (nonneg : 0 ≤ found) :
    deserialize (serialize { r with found }) = .ok { r with found } := by
  obtain ⟨current, clean, d, v, back, fields, front, bare⟩ := deserialize_shape read sized long
  have full : ({ r with found } : PAYLOAD).Sized := ⟨sized.stations, sized.address, sized.routes, sized.time⟩
  exact serialize_shape full long nonneg current clean fields front bare

theorem serialize_found {p r : PAYLOAD} (hp : 0 ≤ p.found) (hr : 0 ≤ r.found)
    (same : serialize p = serialize r) : p.found = r.found := by
  rw [serialize_eq, serialize_eq, PAYLOAD.header, PAYLOAD.header] at same
  have read := matchCounter_print hp (printInt p.hops ++ ' ' :: (printInt p.current ++ (p.joined ++ [';'])))
  rw [same, matchCounter_print hr, Option.some.injEq, Prod.mk.injEq] at read
  exact read.1.symm

theorem serialize_tail (p : PAYLOAD) : ∃ front, serialize p =
    ((front ++ ' ' :: p.destination) ++ ' ' :: p.source) ++ ' ' :: (p.start_time ++ [';']) := by
  refine ⟨p.header (' ' :: (join p.stations ++ ' ' :: (join p.address ++ ' ' :: (join p.routes ++ ' ' ::
    join p.time)))), ?_⟩
  simp only [serialize_eq, PAYLOAD.header, PAYLOAD.joined, List.append_assoc, List.cons_append]

/-- A text that is serialized says what it is about. -/
theorem PAYLOAD.Cut.key_eq {p r : PAYLOAD} (hp : p.Cut) (hr : r.Cut) (same : serialize p = serialize r) :
    p.key = r.key := by
  obtain ⟨front, whole⟩ := serialize_tail p
  obtain ⟨front', whole'⟩ := serialize_tail r
  have ends : ∀ {q : PAYLOAD}, q.Cut → ' ' ∉ q.start_time ++ [';'] := by
    intro q cut member
    rcases List.mem_append.mp member with inside | last
    · exact cut.start_time inside
    · cases List.mem_singleton.mp last
  rw [whole, whole'] at same
  obtain ⟨same, times⟩ := cut_last (ends hp) (ends hr) same
  obtain ⟨same, _⟩ := cut_last hp.source hr.source same
  obtain ⟨_, destinations⟩ := cut_last hp.destination hr.destination same
  exact Prod.ext destinations (List.append_cancel_right times)

end TransitNet
