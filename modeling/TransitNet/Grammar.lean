import TransitNet.Requests

/-! What `parse_query` takes for a request, beside the grammar of requests. -/
namespace TransitNet
open Words

/-- The request line that asks for `D`, at `T` if there is one. -/
def requestLine (version D : Text) : Option Text → Text
  | none => "GET /?to=".toList ++ (D ++ version)
  | some T => "GET /?to=".toList ++ (D ++ ("&time=".toList ++ (T ++ version)))

theorem requestLine_none (version D : Text) :
    requestLine version D none = "GET /?to=".toList ++ (D ++ version) := rfl

theorem requestLine_some (version D T : Text) :
    requestLine version D (some T) = "GET /?to=".toList ++ (D ++ ("&time=".toList ++ (T ++ version))) := rfl

/-- `query` begins with such a line, and neither `D` nor `T` is empty or holds a space or `&`. -/
structure Opens (version query D : Text) (T : Option Text) : Prop where
  destination : Word delimits D
  time : ∀ t ∈ T, Word delimits t
  front : requestLine version D T <+: query

/-- The grammar: what a request asks for. -/
def Asks (current_time query : Text) (result : Text × Text) : Prop :=
  ∃ D T, Opens " HTTP/1.1".toList query D T ∧ result = (D, (T.map decode_url).getD current_time)

/-- ` HTTP/1.1` with another character for the dot. -/
def versionWith (dot : Char) : Text := " HTTP/1".toList ++ [dot, '1']

/-! ### The pieces of the patterns -/

theorem matchLiteral_iff {literal s rest : Text} : matchLiteral literal s = some rest ↔ s = literal ++ rest := by
  rw [matchLiteral]
  constructor
  · intro found
    split at found
    · rename_i front
      obtain ⟨behind, rfl⟩ := List.isPrefixOf_iff_prefix.mp front
      rw [List.drop_left, Option.some.injEq] at found
      rw [found]
    · cases found
  · rintro rfl
    rw [if_pos (List.isPrefixOf_iff_prefix.mpr (List.prefix_append literal rest)), List.drop_left]

theorem matchValue_append {s value rest : Text} (found : matchValue s = some (value, rest)) : s = value ++ rest := by
  simp only [matchValue] at found
  split at found
  · cases found
  · cases found
    exact List.takeWhile_append_dropWhile.symm

theorem matchValue_word {value : Text} (word : Word delimits value) {c : Char} (ends : delimits c = true) (s : Text) :
    matchValue (value ++ c :: s) = some (value, c :: s) := by
  simp only [matchValue, takeWhile_letters word.clean ends, dropWhile_letters word.clean ends, List.isEmpty_iff]
  exact if_neg word.nonempty

theorem matchVersion_iff {s : Text} : matchVersion s = true ↔ ∃ dot, dot ≠ '\n' ∧ versionWith dot <+: s := by
  constructor
  · intro found
    rw [matchVersion] at found
    split at found
    · rename_i dot rest behind
      rw [matchLiteral_iff] at behind
      exact ⟨dot, of_decide_eq_true found, rest, behind.symm⟩
    · cases found
  · rintro ⟨dot, plain, rest, rfl⟩
    have behind : matchLiteral " HTTP/1".toList (versionWith dot ++ rest) = some (dot :: '1' :: rest) :=
      matchLiteral_iff.mpr rfl
    rw [matchVersion, behind]
    exact decide_eq_true plain

/-! ### The patterns -/

theorem delimits_space : delimits ' ' = true := rfl

theorem delimits_amp : delimits '&' = true := rfl

/-- What stands behind the destination begins with a space or `&`, and both end it. -/
theorem versionWith_append (dot : Char) (rest : Text) :
    versionWith dot ++ rest = ' ' :: ("HTTP/1".toList ++ dot :: '1' :: rest) := by
  have front : " HTTP/1".toList = ' ' :: "HTTP/1".toList := by decide
  unfold versionWith
  rw [front]
  generalize "HTTP/1".toList = protocol
  rw [List.append_assoc]
  rfl

theorem time_append (rest : Text) : "&time=".toList ++ rest = '&' :: ("time=".toList ++ rest) := by
  have front : "&time=".toList = '&' :: "time=".toList := by decide
  rw [front]
  generalize "time=".toList = field
  rfl

theorem pattern1_iff {query D : Text} :
    pattern1 query = some D ↔ ∃ dot, dot ≠ '\n' ∧ Opens (versionWith dot) query D none := by
  constructor
  · intro found
    obtain ⟨rest, opened, found⟩ := Option.bind_eq_some_iff.mp found
    obtain ⟨⟨value, behind⟩, matched, found⟩ := Option.bind_eq_some_iff.mp found
    obtain ⟨versioned, same⟩ := Option.ite_none_right_eq_some.mp found
    cases same
    obtain ⟨dot, plain, front⟩ := matchVersion_iff.mp versioned
    refine ⟨dot, plain, matchValue_some matched, (fun t absent => absurd absent (Option.not_mem_none t)), ?_⟩
    rw [matchLiteral_iff.mp opened, matchValue_append matched, requestLine_none]
    exact (List.prefix_append_right_inj _).mpr ((List.prefix_append_right_inj _).mpr front)
  · rintro ⟨dot, plain, opens⟩
    obtain ⟨rest, line⟩ := opens.front
    rw [← line]
    have opened : matchLiteral "GET /?to=".toList (requestLine (versionWith dot) D none ++ rest) =
        some (D ++ (versionWith dot ++ rest)) :=
      matchLiteral_iff.mpr (by rw [requestLine_none, List.append_assoc, List.append_assoc])
    have matched : matchValue (D ++ (versionWith dot ++ rest)) = some (D, versionWith dot ++ rest) := by
      rw [versionWith_append]
      exact matchValue_word opens.destination delimits_space _
    have versioned : matchVersion (versionWith dot ++ rest) = true :=
      matchVersion_iff.mpr ⟨dot, plain, List.prefix_append _ rest⟩
    simp only [pattern1, opened, matched, versioned, bind, Option.bind_some, if_true]

theorem pattern2_iff {query D T : Text} :
    pattern2 query = some (D, T) ↔ ∃ dot, dot ≠ '\n' ∧ Opens (versionWith dot) query D (some T) := by
  constructor
  · intro found
    obtain ⟨rest, opened, found⟩ := Option.bind_eq_some_iff.mp found
    obtain ⟨⟨value, behind⟩, matched, found⟩ := Option.bind_eq_some_iff.mp found
    obtain ⟨rest', separated, found⟩ := Option.bind_eq_some_iff.mp found
    obtain ⟨⟨value', behind'⟩, matched', found⟩ := Option.bind_eq_some_iff.mp found
    obtain ⟨versioned, same⟩ := Option.ite_none_right_eq_some.mp found
    cases same
    obtain ⟨dot, plain, front⟩ := matchVersion_iff.mp versioned
    refine ⟨dot, plain, matchValue_some matched, fun t member => ?_, ?_⟩
    · cases member
      exact matchValue_some matched'
    · have line := matchValue_append matched
      rw [matchLiteral_iff.mp separated, matchValue_append matched'] at line
      rw [matchLiteral_iff.mp opened, line, requestLine_some]
      simp only [List.prefix_append_right_inj]
      exact front
  · rintro ⟨dot, plain, opens⟩
    obtain ⟨rest, line⟩ := opens.front
    rw [← line]
    have opened : matchLiteral "GET /?to=".toList (requestLine (versionWith dot) D (some T) ++ rest) =
        some (D ++ ("&time=".toList ++ (T ++ (versionWith dot ++ rest)))) :=
      matchLiteral_iff.mpr (by simp only [requestLine_some, List.append_assoc])
    have matched : matchValue (D ++ ("&time=".toList ++ (T ++ (versionWith dot ++ rest)))) =
        some (D, "&time=".toList ++ (T ++ (versionWith dot ++ rest))) := by
      rw [time_append]
      exact matchValue_word opens.destination delimits_amp _
    have separated : matchLiteral "&time=".toList ("&time=".toList ++ (T ++ (versionWith dot ++ rest))) =
        some (T ++ (versionWith dot ++ rest)) :=
      matchLiteral_iff.mpr rfl
    have matched' : matchValue (T ++ (versionWith dot ++ rest)) = some (T, versionWith dot ++ rest) := by
      rw [versionWith_append]
      exact matchValue_word (opens.time T rfl) delimits_space _
    have versioned : matchVersion (versionWith dot ++ rest) = true :=
      matchVersion_iff.mpr ⟨dot, plain, List.prefix_append _ rest⟩
    simp only [pattern2, opened, matched, separated, matched', versioned, bind, Option.bind_some, if_true]

theorem requestLine_none_append (dot : Char) (D rest : Text) :
    requestLine (versionWith dot) D none ++ rest =
      "GET /?to=".toList ++ (D ++ ' ' :: ("HTTP/1".toList ++ dot :: '1' :: rest)) := by
  rw [requestLine_none, List.append_assoc, List.append_assoc, versionWith_append]

theorem requestLine_some_append (dot : Char) (D T rest : Text) :
    requestLine (versionWith dot) D (some T) ++ rest =
      "GET /?to=".toList ++ (D ++ '&' :: ("time=".toList ++ (T ++ ' ' :: ("HTTP/1".toList ++ dot :: '1' :: rest)))) := by
  rw [requestLine_some, List.append_assoc, List.append_assoc, List.append_assoc, List.append_assoc,
    versionWith_append, time_append]

/-- A text is such a line in one way. -/
theorem Opens.unique {query D D' : Text} {T T' : Option Text} {dot dot' : Char}
    (h : Opens (versionWith dot) query D T) (h' : Opens (versionWith dot') query D' T') :
    dot = dot' ∧ D = D' ∧ T = T' := by
  obtain ⟨rest, line⟩ := h.front
  obtain ⟨rest', line'⟩ := h'.front
  have same := line.trans line'.symm
  have clean := h.destination.clean
  have clean' := h'.destination.clean
  cases T with
  | none =>
      cases T' with
      | none =>
          rw [requestLine_none_append, requestLine_none_append] at same
          obtain ⟨rfl, _, behind⟩ := cut_first clean clean' delimits_space delimits_space (List.append_cancel_left same)
          exact ⟨(List.cons.inj (List.append_cancel_left behind)).1, rfl, rfl⟩
      | some T' =>
          rw [requestLine_none_append, requestLine_some_append] at same
          obtain ⟨_, space, _⟩ := cut_first clean clean' delimits_space delimits_amp (List.append_cancel_left same)
          exact absurd space (by decide)
  | some T =>
      cases T' with
      | none =>
          rw [requestLine_some_append, requestLine_none_append] at same
          obtain ⟨_, space, _⟩ := cut_first clean clean' delimits_amp delimits_space (List.append_cancel_left same)
          exact absurd space (by decide)
      | some T' =>
          rw [requestLine_some_append, requestLine_some_append] at same
          obtain ⟨rfl, _, timed⟩ := cut_first clean clean' delimits_amp delimits_amp (List.append_cancel_left same)
          obtain ⟨rfl, _, behind⟩ := cut_first (h.time T rfl).clean (h'.time T' rfl).clean delimits_space
            delimits_space (List.append_cancel_left timed)
          exact ⟨(List.cons.inj (List.append_cancel_left behind)).1, rfl, rfl⟩

/-! ### The grammar -/

/-- What `parse_query` takes, and what it returns. -/
theorem parse_query_iff {current_time query : Text} {result : Text × Text} :
    parse_query current_time query = some result ↔ ∃ dot D T, dot ≠ '\n' ∧ Opens (versionWith dot) query D T ∧
      result = (decode_url D, (T.map decode_url).getD current_time) := by
  unfold parse_query
  constructor
  · intro accepted
    split at accepted
    · rename_i D found
      obtain ⟨dot, plain, opens⟩ := pattern1_iff.mp found
      cases accepted
      exact ⟨dot, D, none, plain, opens, rfl⟩
    · obtain ⟨⟨D, T⟩, found, same⟩ := Option.map_eq_some_iff.mp accepted
      obtain ⟨dot, plain, opens⟩ := pattern2_iff.mp found
      exact ⟨dot, D, some T, plain, opens, same.symm⟩
  · rintro ⟨dot, D, T, plain, opens, rfl⟩
    cases T with
    | none =>
        rw [pattern1_iff.mpr ⟨dot, plain, opens⟩]
        rfl
    | some T =>
        have missed : pattern1 query = none := by
          rw [Option.eq_none_iff_forall_ne_some]
          intro D' found
          obtain ⟨dot', _, opens'⟩ := pattern1_iff.mp found
          cases (opens.unique opens').2.2
        rw [missed, pattern2_iff.mpr ⟨dot, plain, opens⟩]
        rfl

theorem decode_url_self {s : Text} : decode_url s = s ↔ '-' ∉ s := by
  have fixed : ∀ c : Char, (if c = '-' then ':' else c) = c ↔ c ≠ '-' := by
    intro c
    split
    · rename_i hyphen
      rw [hyphen]
      decide
    · rename_i other
      exact ⟨fun _ => other, fun _ => rfl⟩
  unfold decode_url
  induction s with
  | nil => exact ⟨fun _ => List.not_mem_nil, fun _ => rfl⟩
  | cons c s ih =>
      rw [List.map_cons, List.cons.injEq, fixed, List.mem_cons, not_or]
      exact and_congr ne_comm ih

/-- `parse_query` keeps to the grammar exactly if the dot of the version is a dot, and no hyphen
stands in the destination. -/
theorem parse_query_asks_iff (current_time query : Text) :
    (∀ result, parse_query current_time query = some result ↔ Asks current_time query result) ↔
      ∀ dot D T, dot ≠ '\n' → Opens (versionWith dot) query D T → dot = '.' ∧ '-' ∉ D := by
  have version : " HTTP/1.1".toList = versionWith '.' := by decide
  unfold Asks
  rw [version]
  constructor
  · intro grammar dot D T plain opens
    obtain ⟨D', T', opens', same⟩ := (grammar _).mp (parse_query_iff.mpr ⟨dot, D, T, plain, opens, rfl⟩)
    obtain ⟨dotted, rfl, rfl⟩ := opens.unique opens'
    exact ⟨dotted, decode_url_self.mp (Prod.mk.inj same).1⟩
  · intro condition result
    rw [parse_query_iff]
    constructor
    · rintro ⟨dot, D, T, plain, opens, rfl⟩
      obtain ⟨rfl, absent⟩ := condition dot D T plain opens
      exact ⟨D, T, opens, by rw [decode_url_self.mpr absent]⟩
    · rintro ⟨D, T, opens, rfl⟩
      have plain : '.' ≠ '\n' := by decide
      obtain ⟨_, absent⟩ := condition '.' D T plain opens
      exact ⟨'.', D, T, plain, opens, by rw [decode_url_self.mpr absent]⟩

/-- A request for a name with a hyphen. -/
def hyphened : Text := "GET /?to=Busport-C HTTP/1.1".toList

/-- The hyphen becomes a colon, and the version need not be 1.1. -/
theorem hyphened_is_renamed :
    parse_query "12:00".toList hyphened = some ("Busport:C".toList, "12:00".toList) ∧
    Asks "12:00".toList hyphened ("Busport-C".toList, "12:00".toList) ∧
    (¬ ∀ result, parse_query "12:00".toList hyphened = some result ↔ Asks "12:00".toList hyphened result) ∧
    parse_query "12:00".toList "GET /?to=StationB HTTP/1x1".toList = some ("StationB".toList, "12:00".toList) ∧
    ∀ result, ¬ Asks "12:00".toList "GET /?to=StationB HTTP/1x1".toList result := by
  have renamed : parse_query "12:00".toList hyphened = some ("Busport:C".toList, "12:00".toList) := by
    decide +kernel
  have version : " HTTP/1.1".toList = versionWith '.' := by decide
  have asks : Asks "12:00".toList hyphened ("Busport-C".toList, "12:00".toList) :=
    ⟨"Busport-C".toList, none, ⟨by decide, fun t absent => absurd absent (Option.not_mem_none t), [], by decide +kernel⟩, rfl⟩
  have opens : Opens (versionWith 'x') "GET /?to=StationB HTTP/1x1".toList "StationB".toList none :=
    ⟨by decide, fun t absent => absurd absent (Option.not_mem_none t), [], by decide +kernel⟩
  refine ⟨renamed, asks, fun grammar => ?_, by decide +kernel, ?_⟩
  · have kept := (grammar _).mpr asks
    rw [renamed] at kept
    exact absurd kept (by decide)
  · rintro result ⟨D, T, opens', _⟩
    rw [version] at opens'
    exact absurd (opens.unique opens').1 (by decide)

end TransitNet
