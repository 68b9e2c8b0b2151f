import TransitNet.PyNetwork
import TransitNet.Browsers

/-! Payloads that lead nowhere. What a Python station cannot read it takes for the default payload,
which asks for no station. -/
namespace TransitNet
open Relay Words Utf8

/-! ### Texts that are cut short -/

/-- `recvfrom(1024)` and `decode('utf-8')`. What is cut inside a character cannot be decoded. -/
def recvfrom (message : Text) : Except PyError Text :=
  if (encode message).length ≤ 1024 then .ok message
  else match message.inits.find? fun front => (encode front).length = 1024 with
    | some front => .ok front
    | none => .error .valueError

theorem recvfrom_front {message data : Text} (received : recvfrom message = .ok data) : data <+: message := by
  rw [recvfrom] at received
  split at received
  · cases received
    exact List.prefix_refl message
  · split at received
    · rename_i front found
      cases received
      exact (List.mem_inits _ _).mp (List.mem_of_find?_eq_some found)
    · cases received

theorem matchCounter_front {s m : Text} (cut : s <+: m) : matchCounter s = none ∨
    ∃ i rest rest', matchCounter s = some (i, rest) ∧ matchCounter m = some (i, rest') ∧ rest <+: rest' := by
  obtain ⟨back, rfl⟩ := cut
  have whole := List.takeWhile_append_dropWhile (p := isdecimal) (l := s)
  cases behind : s.dropWhile isdecimal with
  | nil =>
      refine .inl ?_
      rw [matchCounter, behind]
  | cons c rest =>
      have stop : isdecimal c = false := by
        have front := List.head?_dropWhile_not isdecimal s
        rw [behind, List.head?_cons] at front
        simpa using front
      rw [behind] at whole
      have digits : ∀ d ∈ s.takeWhile isdecimal, isdecimal d = true := fun d member => List.mem_takeWhile_imp member
      have taken : (s ++ back).takeWhile isdecimal = s.takeWhile isdecimal := by
        rw [← whole, List.append_assoc, List.takeWhile_append_of_pos digits, List.cons_append,
          List.takeWhile_cons_of_neg (by rw [stop]; exact Bool.false_ne_true), List.append_nil,
          List.takeWhile_append_of_pos digits,
          List.takeWhile_cons_of_neg (by rw [stop]; exact Bool.false_ne_true), List.append_nil]
      have dropped : (s ++ back).dropWhile isdecimal = c :: (rest ++ back) := by
        rw [← whole, List.append_assoc, List.dropWhile_append_of_pos digits, List.cons_append,
          List.dropWhile_cons_of_neg (by rw [stop]; exact Bool.false_ne_true)]
      by_cases space : c = ' '
      · subst space
        by_cases empty : (s.takeWhile isdecimal).isEmpty = true
        · refine .inl ?_
          simp only [matchCounter, behind, empty, if_true]
        · refine .inr ⟨intOf (s.takeWhile isdecimal), rest, rest ++ back, ?_, ?_, List.prefix_append _ _⟩
          · simp only [matchCounter, behind, if_neg empty]
          · simp only [matchCounter, taken, dropped, if_neg empty]
      · refine .inl ?_
        rw [matchCounter, behind]
        split
        · rename_i same
          cases same
          exact absurd rfl space
        · rfl

theorem matchBody_front {s m : Text} (cut : s <+: m) : matchBody s = none ∨ matchBody s = matchBody m := by
  obtain ⟨back, rfl⟩ := cut
  cases s with
  | nil => exact .inl rfl
  | cons c s =>
      by_cases sealed : ';' ∈ s
      · refine .inr ?_
        have taken : (s ++ back).takeWhile (· ≠ ';') = s.takeWhile (· ≠ ';') := by
          rw [List.takeWhile_append]
          split
          · rename_i all
            have whole := List.takeWhile_eq_self_iff.mp ((List.takeWhile_prefix _).eq_of_length all) ';' sealed
            exact absurd whole (by decide)
          · rfl
        have dropped : ∀ t : Text, ';' ∈ t → t.dropWhile (· ≠ ';') ≠ [] := by
          intro t member empty
          exact absurd (List.dropWhile_eq_nil_iff.mp empty ';' member) (by decide)
        have first := dropped s sealed
        have second := dropped (s ++ back) (List.mem_append_left back sealed)
        simp only [matchBody, List.cons_append, taken, first, second, or_false]
      · refine .inl ?_
        have dropped : s.dropWhile (· ≠ ';') = [] := by
          exact List.dropWhile_eq_nil_iff.mpr (all_ne sealed)
        simp only [matchBody, dropped, or_true, if_true]

/-- A text that is cut short reads as before, or as the default payload. -/
theorem deserialize_front {s m : Text} (cut : s <+: m) :
    deserialize s = deserialize m ∨ deserialize s = .ok defaultPayload := by
  rcases matchCounter_front cut with no | ⟨found, rest, rest', first, first', cut⟩
  · exact .inr (by rw [deserialize, no])
  rcases matchCounter_front cut with no | ⟨hops, rest, rest', second, second', cut⟩
  · refine .inr ?_
    simp only [deserialize, first, no]
  rcases matchCounter_front cut with no | ⟨current, rest, rest', third, third', cut⟩
  · refine .inr ?_
    simp only [deserialize, first, second, no]
  rcases matchBody_front cut with no | same
  · refine .inr ?_
    simp only [deserialize, first, second, third, no]
  · refine .inl ?_
    simp only [deserialize, first, second, third, first', second', third', same]

/-! ### What a request is read as -/

/-- What stands before the first semicolon of a request's destination, the station's name and a
request's time. -/
def PyStation.wording (st : PyStation) (destination start_time : Text) : Text :=
  (destination ++ ' ' :: (st.STATION_NAME ++ ' ' :: start_time)).takeWhile (· ≠ ';')

theorem deserialize_unread {p : PAYLOAD} {rest : Text} (found : 0 ≤ p.found) (hops : 0 ≤ p.hops)
    (current : 0 ≤ p.current) (matched : matchBody rest = none) : deserialize (p.header (' ' :: rest)) = .ok defaultPayload := by
  simp only [deserialize, PAYLOAD.header, matchCounter_print found, matchCounter_print hops,
    matchCounter_print current, matched]

section Init
variable {st : PyStation} {destination start_time : Text}

/-- The pattern takes the wording, and the spaces before it. -/
theorem matchBody_wording (st : PyStation) (destination start_time : Text) :
    matchBody ("    ".toList ++ (destination ++ ' ' :: (st.STATION_NAME ++ ' ' :: (start_time ++ [';'])))) =
      if '\n' ∈ st.wording destination start_time then none
      else some ("    ".toList ++ st.wording destination start_time) := by
  let question := destination ++ ' ' :: (st.STATION_NAME ++ ' ' :: start_time)
  have spaces : "    ".toList = ' ' :: [' ', ' ', ' '] := by decide
  have pad : ∀ c ∈ [' ', ' ', ' '], decide (c ≠ ';') = true := List.all_eq_true.mp (by decide)
  have whole : destination ++ ' ' :: (st.STATION_NAME ++ ' ' :: (start_time ++ [';'])) = question ++ [';'] := by
    simp only [question, List.append_assoc, List.cons_append]
  have taken : (question ++ [';']).takeWhile (· ≠ ';') = st.wording destination start_time := by
    rw [List.takeWhile_append]
    split
    · rename_i all
      rw [List.takeWhile_cons_of_neg (by decide), List.append_nil]
      exact ((List.takeWhile_prefix _).eq_of_length all).symm
    · rfl
  have dropped : (question ++ [';']).dropWhile (· ≠ ';') ≠ [] := by
    intro empty
    have last := List.dropWhile_eq_nil_iff.mp empty ';' (List.mem_append_right _ List.mem_cons_self)
    exact absurd last (by decide)
  have inner : ([' ', ' ', ' '] ++ (question ++ [';'])).takeWhile (· ≠ ';') =
      [' ', ' ', ' '] ++ st.wording destination start_time := by
    rw [List.takeWhile_append_of_pos pad, taken]
  have outer : ([' ', ' ', ' '] ++ (question ++ [';'])).dropWhile (· ≠ ';') ≠ [] := by
    rwa [List.dropWhile_append_of_pos pad]
  have line : '\n' ∈ ' ' :: ([' ', ' ', ' '] ++ st.wording destination start_time) ↔
      '\n' ∈ st.wording destination start_time := by simp
  rw [whole, spaces, List.cons_append]
  simp only [matchBody, inner, outer, or_false, line]
  rfl

theorem init_header (destination source start_time : Text) :
    serialize (init_payload destination source start_time) = (init_payload destination source start_time).header
      (' ' :: ("    ".toList ++ (destination ++ ' ' :: (source ++ ' ' :: (start_time ++ [';']))))) := by
  have zero : printInt 0 = ['0'] := by decide
  have front : "0 0 0 ".toList = ['0', ' ', '0', ' ', '0', ' '] := by decide
  rw [serialize_init, front]
  simp only [PAYLOAD.header, init_payload, defaultPayload, zero]
  rfl

/-- A question with a line break in it is not read. -/
theorem init_unread (broken : '\n' ∈ st.wording destination start_time) :
    deserialize (st.ask destination start_time).message = .ok defaultPayload := by
  rw [PyStation.ask, init_header]
  refine deserialize_unread (Int.le_refl 0) (Int.le_refl 0) (Int.le_refl 0) ?_
  rw [matchBody_wording, if_pos broken]

/-- A question may be read as another one. -/
theorem init_read (whole : '\n' ∉ st.wording destination start_time) {front : List Text} {d s t : Text}
    (words : split whitespace (st.wording destination start_time) = front ++ [d, s, t]) :
    deserialize (st.ask destination start_time).message = .ok (init_payload d s t) ∧
      Word parts d ∧ Word parts s ∧ Word parts t := by
  have body : split whitespace ("    ".toList ++ st.wording destination start_time) = front ++ [d, s, t] := by
    rw [← words, show "    ".toList = List.replicate 4 ' ' by decide]
    exact split_pad (by decide) 4 _
  have word : ∀ w ∈ front ++ [d, s, t], Word parts w := by
    intro w member
    rw [← words] at member
    have clean := mem_split member
    refine ⟨clean.nonempty, fun c inside => ?_⟩
    have kept := List.mem_takeWhile_imp (split_within member c inside)
    rw [decide_eq_true_eq] at kept
    rw [parts, clean.clean c inside, Bool.false_or]
    exact decide_eq_false kept
  refine ⟨?_, word d (by simp), word s (by simp), word t (by simp)⟩
  rw [PyStation.ask, init_header]
  exact deserialize_words (Int.le_refl 0) (Int.le_refl 0) (Int.le_refl 0)
    (by rw [matchBody_wording, if_neg whole]) body

end Init

/-! ### Payloads that lead nowhere -/

namespace PyNetwork
variable {V : Type*} {P : PyNetwork V}

/-- The datagram reaches a station with a payload of a kind. -/
def Carries (P : PyNetwork V) (kind : V → PAYLOAD → Prop) (d : PyDatagram) : Prop :=
  ∃ y r, P.resolve d.ip_addr d.udp_port = some y ∧ deserialize d.message = .ok r ∧ kind y r

/-- The station handles the payload, and sends on payloads of a kind. -/
def Passes (P : PyNetwork V) (kind : V → PAYLOAD → Prop) (x : V) (p : PAYLOAD) : Prop :=
  ∃ sent, (P.station x).handle p = .ok { sent } ∧ ∀ d ∈ sent, P.Carries kind d

/-- What is sent to a station that there is. -/
theorem Wired.carries (h : P.Wired) {kind : V → PAYLOAD → Prop} {y : V} {text : Text} {r : PAYLOAD}
    (read : deserialize text = .ok r) (meets : kind y r) : P.Carries kind ⟨P.ip y, P.port y, text⟩ :=
  ⟨y, r, h.home y, read, meets⟩

/-- Datagrams can be carried from one station to the other. -/
def Wired.Leads (h : P.Wired) : V → V → Prop := Relation.ReflTransGen fun x y => y ∈ h.twin.nbrs x

/-- A payload that looks for a station that it cannot reach. -/
structure Wired.Stray (h : P.Wired) (x : V) (p : PAYLOAD) : Prop where
  found : p.found = 0
  place : p.current = p.hops
  readable : p.Legible ∨ p = defaultPayload
  nowhere : ∀ y, h.Leads x y → p.destination ≠ P.name y

/-- The words of a payload that has come by one more station. -/
theorem visited_fields {p : PAYLOAD} {st : Station} {route_name arrival_time s : Text}
    (member : s ∈ (p.visited st route_name arrival_time).fields) : s ∈ p.fields ∨ s = st.station_name ∨
      s = st.recorded ∨ s = route_name ∨ s = arrival_time := by
  simp only [PAYLOAD.fields, PAYLOAD.visited, List.mem_append, List.mem_singleton] at member ⊢
  tauto

theorem Regular.visited_legible (h : P.Regular) {p : PAYLOAD} (legible : p.Legible) (x : V) :
    (p.visited (P.station x).twin blank blank).Legible := by
  have nonneg := legible.sized.hops_nonneg
  have pad : Word parts blank := by decide
  refine ⟨legible.sized.visited _ _ _, legible.found, Int.add_nonneg nonneg (by decide), fun s member => ?_⟩
  rcases visited_fields member with old | rfl | rfl | rfl | rfl
  · exact legible.fields s old
  · exact h.name x
  · exact (h.dotted x).word
  · exact pad
  · exact pad

/-- A default payload that is flooded comes back with a destination. -/
theorem Regular.visited_default (h : P.Regular) (x : V) :
    deserialize (serialize (defaultPayload.visited (P.station x).twin blank blank)) =
      .ok { defaultPayload.visited (P.station x).twin blank blank with destination := blank, source := blank } := by
  let p := defaultPayload.visited (P.station x).twin blank blank
  let tail : Text := ' ' :: ' ' :: "00:00".toList
  let X : Text := P.name x ++ ' ' :: (P.recorded x ++ ' ' :: (blank ++ ' ' :: (blank ++ ' ' :: tail)))
  have spelled : serialize p = p.header (' ' :: (X ++ [';'])) := by
    have alone : ∀ w, join [w] = w := fun w => List.append_nil w
    rw [serialize_eq]
    simp only [p, X, tail, PAYLOAD.joined, PAYLOAD.visited, defaultPayload, List.nil_append, alone,
      List.append_assoc, List.cons_append]
    rfl
  have name := h.name x
  have address : Word parts (P.recorded x) := (h.dotted x).word
  have pad : Word parts blank := by decide
  have plain : ∀ {w c}, Word parts w → parts c = true → c ∉ w := by
    intro w c word bad member
    rw [word.clean c member] at bad
    cases bad
  have clean : ∀ c, parts c = true → c ≠ ' ' → c ∉ tail → c ∉ X := by
    intro c bad space last
    simp only [X, List.mem_append, List.mem_cons, not_or]
    exact ⟨plain name bad, space, plain address bad, space, plain pad bad, space, plain pad bad, space, last⟩
  have nonempty : X ≠ [] := fun empty => name.nonempty (List.append_eq_nil_iff.mp empty).1
  have white : ∀ {w}, Word parts w → Word whitespace w := fun word => word.mono parts_white
  have space : whitespace ' ' = true := by decide
  have words : split whitespace X = [P.name x, P.recorded x] ++ [blank, blank, "00:00".toList] := by
    rw [split_word (white name) space, split_word (white address) space, split_word (white pad) space,
      split_word (white pad) space]
    rfl
  have one : (0 : ℤ) ≤ 0 + 1 := by decide
  have read := deserialize_words (p := p) (Int.le_refl 0) one one
    (matchBody_sealed nonempty (clean ';' (by decide) (by decide) (by decide))
      (clean '\n' (by decide) (by decide) (by decide))) words
  rw [← spelled, words] at read
  exact read

/-- A payload that leads nowhere is flooded, and leads nowhere. -/
theorem Regular.passes_stray (h : P.Regular) (unnamed : ∀ y, P.name y ≠ blank) {x : V} {p : PAYLOAD}
    (stray : h.Stray x p) : P.Passes h.Stray x p := by
  have flooded := h.floods stray.found stray.place (stray.nowhere x Relation.ReflTransGen.refl)
  refine ⟨_, flooded, fun d member => ?_⟩
  obtain ⟨y, near, rfl⟩ := List.mem_map.mp member
  have near := (List.mem_filter.mp near).1
  have onward : ∀ z, h.Leads y z → h.Leads x z := fun z leads => leads.head near
  rcases stray.readable with legible | rfl
  · have visited := h.visited_legible legible x
    refine h.carries visited.serialize ⟨stray.found, rfl, .inl visited, fun z leads => ?_⟩
    exact stray.nowhere z (onward z leads)
  · refine h.carries (h.visited_default x) ⟨rfl, rfl, .inl ?_, fun z _ => (unnamed z).symm⟩
    have pad : Word parts blank := by decide
    have zero : Word parts "00:00".toList := by decide
    have one : (0 : ℤ) ≤ 0 + 1 := by decide
    have sized : defaultPayload.Sized := ⟨rfl, rfl, rfl, rfl⟩
    have grown := sized.visited (P.station x).twin blank blank
    refine ⟨⟨grown.stations, grown.address, grown.routes, grown.time⟩, Int.le_refl 0, one, fun s member => ?_⟩
    simp only [PAYLOAD.fields, PAYLOAD.visited, defaultPayload, List.nil_append, List.cons_append,
      List.mem_cons, List.not_mem_nil, or_false] at member
    rcases member with rfl | rfl | rfl | rfl | rfl | rfl | rfl
    · exact h.name x
    · exact (h.dotted x).word
    · exact pad
    · exact pad
    · exact pad
    · exact pad
    · exact zero

/-! ### Payloads from nowhere

A request may put another word in the place of its station's name. If no station on the way has
that name, the payload comes back past its first station, and its counter of stations falls below
zero. -/

/-- A payload of a search, in somebody else's name. -/
def Wired.borne (h : P.Wired) (q : Query V) (source start_time : Text) (ph : Phase V) : PAYLOAD :=
  { h.payload q start_time ph with source }

inductive Wired.Lost (h : P.Wired) (q : Query V) (source start_time : Text) : V → PAYLOAD → Prop
  | out {path : List V} {x : V} (walk : Walk h.twin.nbrs (h.twin.task.goal q) q.source path x) :
      h.Lost q source start_time x (h.borne q source start_time (.flood path x))
  | back {path : List V} {k : ℕ} {x : V}
      (valid : (Phase.back path k).Valid h.twin.nbrs (h.twin.task.goal q) q.source)
      (here : (Phase.back path k).at = some x) :
      h.Lost q source start_time x (h.borne q source start_time (.back path k))
  /-- Sent on from the first station to the last. -/
  | behind {front : List V} {y x : V}
      (valid : (Phase.back (front ++ [y, x]) 1).Valid h.twin.nbrs (h.twin.task.goal q) q.source) :
      h.Lost q source start_time x { h.borne q source start_time (.back (front ++ [y, x]) 1) with current := 0 }

theorem matchCounter_minus (rest : Text) : matchCounter ('-' :: rest) = none := by
  have minus : isdecimal '-' = false := by decide
  rw [matchCounter, List.dropWhile_cons_of_neg (by rw [minus]; exact Bool.false_ne_true)]
  split
  · rename_i same
    cases same
  · rfl

/-- The pattern knows no negative numbers. -/
theorem deserialize_minus {p : PAYLOAD} (found : 0 ≤ p.found) (hops : 0 ≤ p.hops) :
    deserialize (serialize { p with current := -1 }) = .ok defaultPayload := by
  have minus : printInt (-1) = ['-', '1'] := by decide
  rw [serialize_eq]
  simp only [deserialize, PAYLOAD.header, matchCounter_print found, matchCounter_print hops, minus,
    List.cons_append, matchCounter_minus]

section Lost
variable {q : Query V} {source start_time : Text}

theorem Regular.borne_legible (h : P.Regular) {ph : Phase V}
    (valid : ph.Valid h.twin.nbrs (h.twin.task.goal q) q.source) (destination : Word parts q.destination)
    (named : Word parts source) (start : Word parts start_time) : (h.borne q source start_time ph).Legible := by
  have legible := h.payload_legible valid destination start
  have same := legible.sized
  refine ⟨⟨same.stations, same.address, same.routes, same.time⟩, legible.found, legible.current, fun s member => ?_⟩
  have fields := legible.fields
  simp only [PAYLOAD.fields, Wired.borne, List.mem_append, List.mem_cons] at member fields
  rcases member with lists | rfl | rfl | last
  · exact fields s (.inl lists)
  · exact fields _ (.inr (.inl rfl))
  · exact named
  · exact fields s (.inr (.inr (.inr last)))

theorem exists_two_last {path : List V} (two : 2 ≤ path.length) : ∃ front y z, path = front ++ [y, z] := by
  rcases List.eq_nil_or_concat path with rfl | ⟨front, z, rfl⟩
  · simp at two
  rcases List.eq_nil_or_concat front with rfl | ⟨front, y, rfl⟩
  · simp at two
  · exact ⟨front, y, z, by simp⟩

theorem recorded_ends (P : PyNetwork V) (front : List V) (y z : V) :
    pyIndex ((front ++ [y, z]).map P.recorded) (-2) = .ok (addressOf (P.ip y) (P.port y)) ∧
      pyIndex ((front ++ [y, z]).map P.recorded) (-1) = .ok (addressOf (P.ip z) (P.port z)) := by
  have address : (front ++ [y, z]).map P.recorded = front.map P.recorded ++ [P.recorded y, P.recorded z] :=
    List.map_append
  have shorter : front.map P.recorded ++ [P.recorded y, P.recorded z] =
      (front.map P.recorded ++ [P.recorded y]) ++ [P.recorded z] := by
    rw [List.append_assoc, List.singleton_append]
  rw [address]
  exact ⟨pyIndex_back _ _ [P.recorded z], shorter ▸ pyIndex_back _ _ []⟩

/-- A message that carries a payload of the search, in somebody else's name. -/
theorem Regular.carries_borne (h : P.Regular) {ph : Phase V} {y : V}
    (valid : ph.Valid h.twin.nbrs (h.twin.task.goal q) q.source) (destination : Word parts q.destination)
    (named : Word parts source) (start : Word parts start_time)
    (lost : h.Lost q source start_time y (h.borne q source start_time ph)) :
    P.Carries (fun y r => h.Lost q source start_time y r ∨ r = defaultPayload)
      ⟨P.ip y, P.port y, serialize (h.borne q source start_time ph)⟩ :=
  h.carries (h.borne_legible valid destination named start).serialize (.inl lost)

section Foreign
variable {x : V}

/-- At the destination it turns. -/
theorem Regular.passes_turned (h : P.Regular) (away : q.destination ≠ P.name q.source)
    (destination : Word parts q.destination) (named : Word parts source) (start : Word parts start_time)
    {path : List V} (walk : Walk h.twin.nbrs (h.twin.task.goal q) q.source path x) (met : P.name x = q.destination)
    (foreign : source ≠ P.name x) : P.Passes (fun y r => h.Lost q source start_time y r ∨ r = defaultPayload) x
      (h.borne q source start_time (.flood path x)) := by
  have goal : h.twin.task.goal q x = true := decide_eq_true met
  have nonempty := List.length_pos_of_ne_nil
    (walk.ne_source_of_goal goal (Network.away_goal (N := h.twin) away))
  obtain ⟨y, last⟩ : ∃ y, path[path.length - 1]? = some y := ⟨_, List.getElem?_eq_getElem (by omega)⟩
  have turned : (P.station x).handle (h.borne q source start_time (.flood path x)) = _ :=
    PyStation.handle_reach (k := path.length - 1) rfl rfl met.symm foreign
      (by simp only [Wired.borne, Wired.payload, Network.payload, Network.onPath]; omega) (get_recorded last)
      (h.dotted y)
  have text : (h.borne q source start_time (.flood path x)).turned (P.station x).twin =
      h.borne q source start_time (.back (path ++ [x]) path.length) :=
    congrArg (fun p : PAYLOAD => { p with source, start_time })
      (Network.payload_turned (N := h.twin) (q := q) path x)
  have valid : (Phase.back (path ++ [x]) path.length).Valid h.twin.nbrs (h.twin.task.goal q) q.source :=
    ⟨⟨path, x, rfl, goal, walk⟩, nonempty, by rw [List.length_append, List.length_singleton]⟩
  refine ⟨_, turned, fun d member => ?_⟩
  rw [List.mem_singleton.mp member, text]
  refine h.carries_borne valid destination named start (.back valid ?_)
  rw [Phase.at, List.getElem?_append_left (by omega), last]

/-- Before the destination it is flooded. -/
theorem Regular.passes_out (h : P.Regular) (destination : Word parts q.destination) (named : Word parts source)
    (start : Word parts start_time) {path : List V}
    (walk : Walk h.twin.nbrs (h.twin.task.goal q) q.source path x) (unmet : P.name x ≠ q.destination) :
    P.Passes (fun y r => h.Lost q source start_time y r ∨ r = defaultPayload) x
      (h.borne q source start_time (.flood path x)) := by
  classical
  have goal : h.twin.task.goal q x = false := decide_eq_false unmet
  have flooded := h.floods (p := h.borne q source start_time (.flood path x)) rfl rfl unmet.symm
  refine ⟨_, flooded, fun d member => ?_⟩
  obtain ⟨y, near, rfl⟩ := List.mem_map.mp member
  have visited : ((h.borne q source start_time (.flood path x)).visited (P.station x).twin blank blank).address =
      (path ++ [x]).map P.recorded := by
    rw [List.map_append]
    rfl
  have text : (h.borne q source start_time (.flood path x)).visited (P.station x).twin blank blank =
      h.borne q source start_time (.flood (path ++ [x]) y) :=
    congrArg (fun p : PAYLOAD => { p with source, start_time })
      (Network.payload_flooded (N := h.twin) (q := q) path x y)
  rw [visited, h.unreached] at near
  obtain ⟨near, fresh⟩ := List.mem_filter.mp near
  have walk := walk.step h.twin_wired.loopless goal near (of_decide_eq_true fresh)
  have valid : (Phase.flood (path ++ [x]) y).Valid h.twin.nbrs (h.twin.task.goal q) q.source := walk
  rw [text]
  exact h.carries_borne valid destination named start (.out walk)

/-- On its way back no station knows the name. The first one passes it on to the last. -/
theorem Regular.passes_back (h : P.Regular) (destination : Word parts q.destination) (named : Word parts source)
    (start : Word parts start_time) {path : List V} {k : ℕ}
    (valid : (Phase.back path k).Valid h.twin.nbrs (h.twin.task.goal q) q.source) (foreign : source ≠ P.name x) :
    P.Passes (fun y r => h.Lost q source start_time y r ∨ r = defaultPayload) x
      (h.borne q source start_time (.back path k)) := by
  have bounds := valid.2
  have passed : (P.station x).handle (h.borne q source start_time (.back path k)) = _ :=
    PyStation.handle_passes (.inl rfl) foreign
  by_cases first : k = 1
  · subst first
    obtain ⟨front, y, z, rfl⟩ := exists_two_last bounds.2
    have spot : pyIndex (h.borne q source start_time (.back (front ++ [y, z]) 1)).address (1 - 1 - 1) =
        .ok (addressOf (P.ip z) (P.port z)) := (P.recorded_ends front y z).2
    refine ⟨_, passed.trans (PyStation.step_back_at spot (h.dotted z)), fun d member => ?_⟩
    rw [List.mem_singleton.mp member]
    have legible := h.borne_legible valid destination named start
    have low : PAYLOAD.Legible { h.borne q source start_time (.back (front ++ [y, z]) 1) with current := 0 } :=
      ⟨⟨legible.sized.stations, legible.sized.address, legible.sized.routes, legible.sized.time⟩,
        legible.found, Int.le_refl 0, legible.fields⟩
    exact h.carries low.serialize (.inl (.behind valid))
  · obtain ⟨y, before⟩ : ∃ y, path[k - 2]? = some y := ⟨_, List.getElem?_eq_getElem (by omega)⟩
    have current : (h.borne q source start_time (.back path k)).current = (k - 2 + 2 : ℕ) := by
      simp only [Wired.borne, Wired.payload, Network.payload, Network.onPath]
      omega
    have valid : (Phase.back path (k - 1)).Valid h.twin.nbrs (h.twin.task.goal q) q.source :=
      ⟨valid.1, by omega, by omega⟩
    have moved : { h.borne q source start_time (.back path k) with current := (k - 2 + 1 : ℕ) } =
        h.borne q source start_time (.back path (k - 1)) := by
      rw [show k - 2 + 1 = k - 1 by omega]
      rfl
    refine ⟨_, passed.trans (PyStation.step_back_eq current (get_recorded before) (h.dotted y)), fun d member => ?_⟩
    rw [List.mem_singleton.mp member, moved]
    exact h.carries_borne valid destination named start (.back valid before)

/-- The last station sends it back with a negative place, which nobody reads. -/
theorem Regular.passes_behind (h : P.Regular) (destination : Word parts q.destination) (named : Word parts source)
    (start : Word parts start_time) {front : List V} {y : V}
    (valid : (Phase.back (front ++ [y, x]) 1).Valid h.twin.nbrs (h.twin.task.goal q) q.source)
    (foreign : source ≠ P.name x) : P.Passes (fun y r => h.Lost q source start_time y r ∨ r = defaultPayload) x
      { h.borne q source start_time (.back (front ++ [y, x]) 1) with current := 0 } := by
  let p : PAYLOAD := { h.borne q source start_time (.back (front ++ [y, x]) 1) with current := 0 }
  have passed : (P.station x).handle p = _ := PyStation.handle_passes (.inl rfl) foreign
  have spot : pyIndex p.address (0 - 1 - 1) = .ok (addressOf (P.ip y) (P.port y)) := (P.recorded_ends front y x).1
  have legible := h.borne_legible valid destination named start
  refine ⟨_, passed.trans (PyStation.step_back_at spot (h.dotted y)), fun d member => ?_⟩
  rw [List.mem_singleton.mp member]
  exact h.carries (deserialize_minus (p := p) legible.found legible.sized.hops_nonneg) (.inr rfl)

end Foreign

/-- A payload in a name that no station on the way has comes back, and past its first station. -/
theorem Regular.passes_lost (h : P.Regular) (away : q.destination ≠ P.name q.source)
    (destination : Word parts q.destination) (named : Word parts source) (start : Word parts start_time)
    (foreign : ∀ path, Route h.twin.nbrs (h.twin.task.goal q) q.source path → source ∉ path.map P.name)
    {x : V} {p : PAYLOAD} (lost : h.Lost q source start_time x p) :
    P.Passes (fun y r => h.Lost q source start_time y r ∨ r = defaultPayload) x p := by
  have other : ∀ {path : List V} {x : V}, Route h.twin.nbrs (h.twin.task.goal q) q.source path →
      x ∈ path → source ≠ P.name x := by
    intro path x route inside same
    exact foreign path route (List.mem_map.mpr ⟨x, inside, same.symm⟩)
  cases lost with
  | @out path x walk =>
      by_cases met : P.name x = q.destination
      · have route : Route h.twin.nbrs (h.twin.task.goal q) q.source (path ++ [x]) :=
          ⟨path, x, rfl, decide_eq_true met, walk⟩
        have here := List.mem_append_right path (List.mem_singleton_self x)
        exact h.passes_turned away destination named start walk met (other route here)
      · exact h.passes_out destination named start walk met
  | @back path k x valid here =>
      exact h.passes_back destination named start valid (other valid.1 (List.mem_of_getElem? here))
  | @behind front y x valid =>
      have here : x ∈ front ++ [y, x] :=
        List.mem_append_right front (List.mem_cons_of_mem y (List.mem_singleton_self x))
      exact h.passes_behind destination named start valid (other valid.1 here)

end Lost

end PyNetwork

/-! ### Datagrams that are no payload -/

/-- `re.match(pattern, payload_str)` and its groups, the numbers read. -/
def matchPayload (payload_str : Text) : Option (ℤ × ℤ × ℤ × Text) := do
  let (found, rest) ← matchCounter payload_str
  let (hops, rest) ← matchCounter rest
  let (current, rest) ← matchCounter rest
  let body ← matchBody rest
  return (found, hops, current, body)

theorem deserialize_unmatched {data : Text} (unmatched : matchPayload data = none) :
    deserialize data = .ok defaultPayload := by
  unfold matchPayload at unmatched
  unfold deserialize
  cases first : matchCounter data with
  | none => rfl
  | some one =>
      cases second : matchCounter one.2 with
      | none => simp only [second]
      | some two =>
          cases third : matchCounter two.2 with
          | none => simp only [second, third]
          | some three =>
              cases last : matchBody three.2 with
              | none => simp only [second, third, last]
              | some body =>
                  rw [first] at unmatched
                  simp [second, third, last] at unmatched

/-- The pattern ends with a semicolon. -/
theorem matchBody_semicolon {s body : Text} (matched : matchBody s = some body) : ';' ∈ s := by
  unfold matchBody at matched
  split at matched
  · cases matched
  · rename_i c s
    dsimp only at matched
    split at matched
    · cases matched
    · rename_i inside
      have more : s.dropWhile (· ≠ ';') ≠ [] := fun empty => inside (.inr empty)
      have first := List.head_dropWhile_not (p := fun c => decide (c ≠ ';')) more
      rw [decide_eq_false_iff_not, ne_eq, not_not] at first
      exact List.mem_cons_of_mem c ((List.dropWhile_suffix _).mem (first ▸ List.head_mem more))

theorem matchCounter_suffix {s rest : Text} {i : ℤ} (matched : matchCounter s = some (i, rest)) : rest <:+ s := by
  unfold matchCounter at matched
  split at matched
  · rename_i behind
    dsimp only at matched
    split at matched
    · cases matched
    · cases matched
      exact (List.suffix_cons ' ' rest).trans (behind ▸ List.dropWhile_suffix isdecimal)
  · cases matched

theorem matchPayload_semicolon {data : Text} (bare : ';' ∉ data) : matchPayload data = none := by
  cases matched : matchPayload data with
  | none => rfl
  | some groups =>
      unfold matchPayload at matched
      obtain ⟨⟨_, rest⟩, first, matched⟩ := Option.bind_eq_some_iff.mp matched
      obtain ⟨⟨_, rest'⟩, second, matched⟩ := Option.bind_eq_some_iff.mp matched
      obtain ⟨⟨_, rest''⟩, third, matched⟩ := Option.bind_eq_some_iff.mp matched
      obtain ⟨body, last, _⟩ := Option.bind_eq_some_iff.mp matched
      have inside := ((matchCounter_suffix third).trans (matchCounter_suffix second)).trans (matchCounter_suffix first)
      exact absurd (inside.mem (matchBody_semicolon last)) bare

/-- What a station makes of the default payload, and of every text that it cannot read. -/
theorem PyStation.handle_default {st : PyStation} (named : st.STATION_NAME ≠ []) :
    st.handle defaultPayload = .ok (st.flood defaultPayload) := by
  have elsewhere : defaultPayload.destination ≠ st.STATION_NAME := named.symm
  have foreign : defaultPayload.source ≠ st.STATION_NAME := named.symm
  rw [PyStation.handle, PyStation.at_destination, if_neg elsewhere, PyStation.at_source, if_neg foreign]
  rfl

/-- A station without a name takes the default payload for its own question. -/
theorem PyStation.handle_default_unnamed {st : PyStation} (unnamed : st.STATION_NAME = []) :
    st.handle defaultPayload = .error .indexError := by
  let q : PAYLOAD := { update_on_arrival st.STATION_NAME st.recorded defaultPayload with found := 1 }
  have here : defaultPayload.destination = st.STATION_NAME := unnamed.symm
  have own : q.source = st.STATION_NAME := unnamed.symm
  have found : q.found = 1 := rfl
  have destination : st.at_destination defaultPayload = q := by
    rw [PyStation.at_destination, if_pos here]
    rfl
  have departs : st.depart q = .error .indexError := rfl
  rw [PyStation.handle, destination]
  simp only [PyStation.at_source, if_pos own, if_pos found, departs]
  rfl

theorem PyStation.flood_default_sent (st : PyStation) : (st.flood defaultPayload).sent = [] ↔
    ∀ n ∈ st.neighbours, addressOf n.ipaddr n.udpport = st.recorded := by
  have visited : (update_on_arrival st.STATION_NAME st.recorded defaultPayload).address = [st.recorded] := rfl
  rw [PyStation.flood, visited, List.map_eq_nil_iff, List.filter_eq_nil_iff]
  apply forall₂_congr
  intro n _
  rw [decide_eq_true_eq, not_not, List.mem_singleton]

theorem printInt_semicolon (i : ℤ) : ';' ∉ printInt i := by
  have digits : ';' ∉ Nat.toDigits 10 i.natAbs := fun member => absurd (toDigits_digit member) (by decide)
  rw [printInt]
  split
  · rw [List.mem_cons, not_or]
    exact ⟨by decide, digits⟩
  · exact digits

/-- Where no field holds a semicolon, only the whole text does. -/
theorem serialize_cut {p : PAYLOAD} (bare : ∀ w ∈ p.fields, ';' ∉ w) {data : Text} (cut : data <+: serialize p)
    (short : data ≠ serialize p) : ';' ∉ data := by
  have joined : ∀ ws : List Text, (∀ w ∈ ws, w ∈ p.fields) → ';' ∉ join ws := by
    intro ws among member
    rcases mem_intercalate member with space | ⟨w, inside, letter⟩
    · exact absurd space (by decide)
    · exact bare w (among w inside) letter
  have front : ';' ∉ p.header p.joined := by
    have space : ';' ≠ ' ' := by decide
    have stations := joined p.stations fun w member => by simp [PAYLOAD.fields, member]
    have address := joined p.address fun w member => by simp [PAYLOAD.fields, member]
    have routes := joined p.routes fun w member => by simp [PAYLOAD.fields, member]
    have time := joined p.time fun w member => by simp [PAYLOAD.fields, member]
    have destination := bare p.destination (by simp [PAYLOAD.fields])
    have source := bare p.source (by simp [PAYLOAD.fields])
    have start := bare p.start_time (by simp [PAYLOAD.fields])
    simp only [PAYLOAD.header, PAYLOAD.joined, List.mem_append, List.mem_cons, space, printInt_semicolon,
      stations, address, routes, time, destination, source, start, or_self, not_false_iff]
  have whole : serialize p = p.header p.joined ++ [';'] := by
    simp only [serialize_eq, PAYLOAD.header, List.append_assoc, List.cons_append]
  rw [whole] at cut short
  rcases List.prefix_concat_iff.mp cut with same | cut
  · exact absurd same short
  · exact fun member => front (cut.mem member)

/-- A datagram that is no payload has no effect where there is nobody to flood it to, and only
there. A payload that is cut short is such a datagram. -/
theorem unmatched_datagram_is_inert_iff (st : PyStation) (s : PyServer) :
    (∀ data, matchPayload data = none →
      ((∃ s', s.datagram st data = .ok (s', []) ∧ s'.queries = s.queries ∧ s'.clients = s.clients) ↔
        st.STATION_NAME ≠ [] ∧ ∀ n ∈ st.neighbours, addressOf n.ipaddr n.udpport = st.recorded)) ∧
    ∀ p : PAYLOAD, (∀ w ∈ p.fields, ';' ∉ w) → ∀ data, data <+: serialize p → data ≠ serialize p →
      matchPayload data = none := by
  refine ⟨fun data unmatched => ?_, fun p bare data cut short => ?_⟩
  · have read := deserialize_unmatched unmatched
    by_cases named : st.STATION_NAME = []
    · have raises : s.datagram st data = .error .indexError := by
        simp only [PyServer.datagram, read, PyStation.handle_default_unnamed named, bind, Except.bind]
      rw [raises]
      exact ⟨fun ⟨_, ran, _⟩ => (by cases ran), fun ⟨nonempty, _⟩ => absurd named nonempty⟩
    · have ran : s.datagram st data = .ok (s.write (st.left defaultPayload (st.flood defaultPayload)) none,
          (st.flood defaultPayload).sent) := by
        simp only [PyServer.datagram, read, PyStation.handle_default named, bind, Except.bind]
        rfl
      rw [ran, ← PyStation.flood_default_sent]
      constructor
      · rintro ⟨s', same, -, -⟩
        rw [Except.ok.injEq, Prod.mk.injEq] at same
        exact ⟨named, same.2⟩
      · rintro ⟨-, none⟩
        rw [none]
        exact ⟨_, rfl, rfl, rfl⟩
  · exact matchPayload_semicolon (serialize_cut bare cut short)

/-- StationA alone has nobody to send a truncated question to. -/
theorem cut_question_is_inert : ∃ s', PyServer.idle.datagram { pyStationA with neighbours := [] }
    "0 0 0     StationB Stat".toList = .ok (s', []) ∧ s'.queries = PyServer.idle.queries ∧
      s'.clients = PyServer.idle.clients :=
  ((unmatched_datagram_is_inert_iff { pyStationA with neighbours := [] } .idle).1
    "0 0 0     StationB Stat".toList (by decide)).mpr ⟨by decide, by decide⟩

/-- StationA floods a truncated question to its neighbour. -/
theorem cut_question_is_flooded :
    matchPayload "0 0 0     StationB Stat".toList = none ∧
      "0 0 0     StationB Stat".toList <+: (pyStationA.ask "StationB".toList "12:00".toList).message ∧
      ∃ s', PyServer.idle.datagram pyStationA "0 0 0     StationB Stat".toList = .ok (s',
        [⟨"127.0.0.1".toList, 4004, "0 1 1 StationA 127.0.0.1:4002 ... ...   00:00;".toList⟩]) := by
  refine ⟨by decide, by decide, ?_⟩
  exact ⟨_, rfl⟩

end TransitNet
