import TransitNet.Forwarding
import Mathlib.Data.List.Chain

/-! Neighbour arguments in any spelling. A station knows the stations on the path by
their recorded addresses, and a neighbour by what its argument says. Where the
two differ and the neighbour lies on a way back, the flood returns to it. -/
namespace TransitNet
open Soup Words

variable {V : Type*} {N : Network V} {q : Query V}

namespace Network

/-- Neighbour arguments lead from `x` to `y`. -/
def Connected (N : Network V) : V → V → Prop := Relation.ReflTransGen fun a b => b ∈ N.nbrs a

/-- A neighbour argument that leads to a station on a way back to `x` leads to another
station than `x`, and is the address that this station records. -/
def SpelledBack (N : Network V) : Prop := ∀ x, ∀ n ∈ (N.station x).Neighbours, ∀ y,
  N.resolve n.ip_addr n.udp_port = some y → N.Connected y x → y ≠ x ∧ n.addr_and_port = N.recorded y

/-- The stations and addresses of a flooding payload are those of a path to `x` that
has not been at `x`. -/
structure Flooding (N : Network V) (x : V) (p : PAYLOAD) (path : List V) : Prop where
  loadable : p.Loadable
  stations : p.stations = path.map N.name
  address : p.address = path.map N.recorded
  fresh : x ∉ path
  linked : (path ++ [x]).IsChain fun a b => b ∈ N.nbrs a

/-- If it arrives anywhere as a payload that is still looking, it is a flooding one. -/
def Floods (N : Network V) (d : Datagram) : Prop := ∀ x p, N.resolve d.ip d.port = some x →
  d.text.length < MAXDATASIZE → load_payload d.text = .ok p → p.found = 0 → ∃ path, N.Flooding x p path

end Network

/-- However many words the destination has, an init payload starts at nobody's station. -/
theorem load_init {destination station_name start_time : Text} {p : PAYLOAD}
    (loaded : load_payload (initText destination station_name start_time) = .ok p) :
    p.Loadable ∧ p.stations = [] ∧ p.address = [] := by
  have front : initText destination station_name start_time =
      "0 0 0 ".toList ++ (destination ++ (' ' :: station_name ++ (' ' :: start_time ++ [';']))) := by
    unfold initText
    simp only [List.append_assoc]
  rw [front] at loaded
  exact load_zeros loaded

theorem connected_of_chain {path : List V} {x y : V}
    (linked : (path ++ [x]).IsChain fun a b => b ∈ N.nbrs a) (member : y ∈ path ++ [x]) :
    N.Connected y x := by
  obtain ⟨front, back, split⟩ := List.append_of_mem member
  rw [split] at linked
  have rest := (List.isChain_append.mp linked).2.1
  refine List.relationReflTransGen_of_exists_isChain_cons back rest ?_
  have last : (path ++ [x]).getLast? = some x := List.getLast?_concat
  rw [split, List.getLast?_append_of_ne_nil _ (List.cons_ne_nil y back),
    List.getLast?_eq_some_getLast (List.cons_ne_nil y back)] at last
  exact Option.some.inj last

namespace Network

/-- One delivery keeps every flood off its own path. -/
theorem Worded.floods_step (worded : N.Worded) (spelled : N.SpelledBack) {d : Datagram}
    {out : List Datagram} {reports : List (V × PAYLOAD)} (floods : N.Floods d)
    (reacts : N.react d = some (out, reports)) : ∀ e ∈ out, N.Floods e := by
  rcases react_some reacts with ⟨rfl, _⟩ | ⟨x, p, outcome, leads, short, loaded, handled, rfl, _⟩
  · intro e member
    cases member
  · by_cases looking : p.found = 0 ∧ p.destination ≠ (N.station x).station_name
    · obtain ⟨path, flooding⟩ := floods x p leads short loaded looking.1
      have ran : handle (N.station x) p.slots p = _ := handle_flood flooding.loadable.sized looking.1 looking.2
      rw [handled, Except.ok.injEq] at ran
      subst ran
      intro e member y p' onward small read _
      obtain ⟨n, kept, rfl⟩ := List.mem_map.mp member
      obtain ⟨given, unreached⟩ := List.mem_filter.mp kept
      have blank₅ : Token ' ' 5 blank := by decide
      have grown := flooding.loadable.visited (worded.name x) (worded.recorded x)
        (blank₅.mono (by decide)) blank₅ ((flooding.loadable.sized.visited _ _ _).hops_lt small)
      rw [grown.load, Except.ok.injEq] at read
      subst read
      have link : y ∈ N.nbrs x := List.mem_filterMap.mpr ⟨n, given, onward⟩
      refine ⟨path ++ [x], grown, ?_, ?_, ?_, ?_⟩
      · rw [List.map_append, ← flooding.stations]
        rfl
      · rw [List.map_append, ← flooding.address]
        rfl
      · intro again
        obtain ⟨other, recorded⟩ := spelled x n given y onward (connected_of_chain flooding.linked again)
        have old : y ∈ path := by simpa [other] using again
        rw [flooding.address, recorded, decide_eq_true_eq] at unreached
        exact unreached (List.mem_map_of_mem old)
      · rw [List.isChain_append]
        refine ⟨flooding.linked, List.isChain_singleton y, ?_⟩
        intro a last b first
        rw [List.getLast?_concat, Option.mem_def, Option.some.injEq] at last
        rw [List.head?_cons, Option.mem_def, Option.some.injEq] at first
        subst last first
        exact link
    · have met : p.found ≠ 0 ∨ p.destination = (N.station x).station_name := by
        by_cases fresh : p.found = 0
        · exact .inr (Classical.not_not.mp fun other => looking ⟨fresh, other⟩)
        · exact .inl fresh
      intro e member y p' _ _ read fresh
      exact absurd fresh (handle_found handled met e member p' read)

/-- Where every way back is spelled as recorded, no station is flooded twice on one route. -/
theorem no_station_is_flooded_twice (worded : N.Worded) (names : Function.Injective N.name)
    (spelled : N.SpelledBack) (qs : List (Query V)) {s : Pool Datagram (V × PAYLOAD)}
    (run : Reaches N.react (launch (qs.map N.init)) s) :
    ∀ f ∈ s.flying, f.msg.text.length < MAXDATASIZE → ∀ x p,
      N.resolve f.msg.ip f.msg.port = some x → load_payload f.msg.text = .ok p → p.found = 0 →
        N.name x ∉ p.stations := by
  have keeps : Preserves N.react (fun f => N.Floods f.msg) fun _ => True := by
    constructor
    · intro f out reports floods reacts g member
      obtain ⟨m, sent, rfl⟩ := mem_spawn.mp member
      exact worded.floods_step spelled floods reacts m sent
    · intro f out reports _ _ r _
      trivial
  have start : (launch (qs.map N.init) : Pool Datagram (V × PAYLOAD)).Good
      (fun f => N.Floods f.msg) fun _ => True := by
    refine launch_good fun _ d member => ?_
    obtain ⟨q, _, rfl⟩ := List.mem_map.mp member
    intro x p _ _ loaded _
    obtain ⟨loadable, stations, address⟩ := load_init loaded
    exact ⟨[], loadable, stations, address, List.not_mem_nil, List.isChain_singleton x⟩
  intro f member short x p leads loaded fresh again
  obtain ⟨path, flooding⟩ := (run.good keeps start).1 f member x p leads short loaded fresh
  rw [flooding.stations, List.mem_map_of_injective names] at again
  exact flooding.fresh again

/-- Recorded addresses spell every way back. -/
theorem Regular.spelledBack (regular : N.Regular) : N.SpelledBack := by
  intro x n given y leads _
  obtain ⟨z, other, home, same⟩ := regular.neighbour given
  rw [home] at leads
  obtain rfl := Option.some.inj leads
  exact ⟨other, by rw [same]; rfl⟩

end Network

def toStationC : Query Bool := ⟨"StationC".toList, false, "08:00".toList⟩

theorem twoStops_outbound : twoStops.react (twoStops.init toStationC) = some ([⟨"127.0.0.1".toList,
    "4004".toList, "0 1 1 StationA 127.0.0.1:4002 ... ... StationC StationA 08:00;".toList⟩], []) := by
  decide +kernel

theorem outbound_is_fresh : twoStops.name true ∉ ["StationA".toList] := by
  have start : Runs twoStops.react (launch ([toStationC].map twoStops.init))
      ⟨{⟨0, [], twoStops.init toStationC⟩}, []⟩ := .refl
  have first := (start.forward twoStops_outbound).reaches
  exact Network.no_station_is_flooded_twice twoStops_regular.toWorded twoStops_regular.names
    twoStops_regular.spelledBack [toStationC] first _ (Multiset.mem_singleton_self _)
    (by decide +kernel) true _ rfl rfl rfl

/-- The same two stations, started with `localhost` as the scripts do. -/
def localStops : Network Bool where
  station
    | false => stationOf "StationA" "4002"
        [bus "09:00" "bus9" "09:20" "StationB", bus "23:00" "bus9" "23:20" "StationB"]
        [("localhost", "4004")]
    | true => stationOf "StationB" "4004"
        [bus "10:00" "bus7" "10:20" "StationA", bus "22:00" "bus7" "22:20" "StationA"]
        [("localhost", "4002")]
  argv
    | false => ["localhost:4004".toList]
    | true => ["localhost:4002".toList]
  started x := by cases x <;> rfl
  resolve := twoStops.resolve

theorem localStops_outbound : localStops.react (localStops.init toStationC) = some ([⟨"localhost".toList,
    "4004".toList, "0 1 1 StationA 127.0.0.1:4002 ... ... StationC StationA 08:00;".toList⟩], []) := by
  decide +kernel

theorem localStops_inbound : localStops.react ⟨"localhost".toList, "4004".toList,
      "0 1 1 StationA 127.0.0.1:4002 ... ... StationC StationA 08:00;".toList⟩ =
    some ([⟨"localhost".toList, "4002".toList,
      "0 2 2 StationA StationB 127.0.0.1:4002 127.0.0.1:4004 ... ... ... ... StationC StationA 08:00;".toList⟩],
      []) := by
  decide +kernel

/-- StationB does not recognise StationA under the name `localhost`, and floods it again. -/
theorem localStops_floods_back : ∃ s,
    Reaches localStops.react (launch ([toStationC].map localStops.init)) s ∧
    ∃ f ∈ s.flying, f.msg.text.length < MAXDATASIZE ∧ ∃ x p,
      localStops.resolve f.msg.ip f.msg.port = some x ∧ load_payload f.msg.text = .ok p ∧ p.found = 0 ∧
        localStops.name x ∈ p.stations := by
  have start : Runs localStops.react (launch ([toStationC].map localStops.init))
      ⟨{⟨0, [], localStops.init toStationC⟩}, []⟩ := .refl
  have second := (start.forward localStops_outbound).forward localStops_inbound
  refine ⟨_, second.reaches, _, Multiset.mem_singleton_self _, ?_, false, _, rfl, rfl, rfl, ?_⟩
  · decide +kernel
  · decide +kernel

end TransitNet
