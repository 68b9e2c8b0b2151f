import TransitNet.Mirror
import TransitNet.Room
import TransitNet.Routing
import TransitNet.Spelling

/-! Stations whose neighbours are all on the same host, and are given as `localhost`. What a station
records in a payload is the address that it finds out for itself, so that no payload has been anywhere. -/
namespace TransitNet
open Soup Relay Words

variable {V : Type*} {N : Network V} {q : Query V}

def loopback : Text := "localhost".toList

/-- What `readneighbour` makes of a port on the same host. -/
theorem readneighbour_loopback {port : Text} {n : NEIGHBOURS}
    (read : readneighbour (loopback ++ ':' :: port) = .ok n) : n.addr_and_port = loopback ++ ':' :: n.udp_port := by
  obtain ⟨⟨host, word⟩, scanned, read⟩ := ok_of_bind read
  obtain ⟨ip_addr, copied, read⟩ := ok_of_bind read
  obtain ⟨udp_port, _, read⟩ := ok_of_bind read
  have stop : scanUntil ':' 60 (loopback ++ ':' :: port) = some (loopback, ':' :: port) :=
    scanUntil_stop (by decide) (by decide) (by decide) port
  have same : host = loopback := by
    simp only [scanHostPort, stop] at scanned
    split at scanned
    · cases scanned
      rfl
    · cases scanned
  cases read
  subst same
  have whole : ip_addr = loopback := by
    have short : strcpy INET6_ADDRSTRLEN (some loopback) = .ok loopback := by decide
    rw [short] at copied
    cases copied
    rfl
  rw [whole]

namespace Network

/-- A network as the start script writes it. -/
structure OnLocalhost (N : Network V) : Prop extends N.Carried where
  started_on : ∀ x, ∀ arg ∈ N.argv x, ∃ port, arg = loopback ++ ':' :: port
  numeric : ∀ x, N.ip x ≠ loopback

/-- No station takes a neighbour for one that the payload has been to. -/
theorem OnLocalhost.strange (onLocalhost : N.OnLocalhost) {x : V} {n : NEIGHBOURS}
    (member : n ∈ (N.station x).Neighbours) (path : List V) : n.addr_and_port ∉ path.map N.recorded := by
  intro been_there
  obtain ⟨y, _, same⟩ := List.mem_map.mp been_there
  obtain ⟨arg, given, read⟩ := (mapM_mem (N.started x)).1 n member
  obtain ⟨port, rfl⟩ := onLocalhost.started_on x arg given
  have endpoint := onLocalhost.endpoint y
  have own := scanUntil_stop endpoint.ip_nonempty endpoint.ip_short endpoint.ip_plain (N.port y)
  have given : scanUntil ':' 45 (loopback ++ ':' :: n.udp_port) = some (loopback, ':' :: n.udp_port) :=
    scanUntil_stop (by decide) (by decide) (by decide) n.udp_port
  rw [readneighbour_loopback read, recorded, Station.recorded] at same
  rw [← same, own, Option.some.injEq, Prod.mk.injEq] at given
  exact onLocalhost.numeric y given.1

/-- A payload that has gone along the path, through no station of the name that it looks for, is on its way
to `x`. -/
structure Wanders (N : Network V) (q : Query V) (path : List V) (x : V) (d : Datagram) : Prop where
  leads : N.resolve d.ip d.port = some x
  text : d.text = (N.payload q (.flood path x)).text
  missed : N.name x ≠ q.destination

theorem Wanders.short_react (carried : N.Carried) {path : List V} {x : V} {d : Datagram}
    (wanders : N.Wanders q path x d) (asked : N.Asked q) (short : d.text.length < MAXDATASIZE) :
    N.react d = some ((((N.station x).Neighbours.filter fun n => n.addr_and_port ∉ path.map N.recorded).map fun n =>
      ⟨n.ip_addr, n.udp_port, (N.payload q (.flood (path ++ [x]) x)).text⟩), []) := by
  have sized : (N.payload q (.flood path x)).Sized :=
    sized_onPath (List.length_replicate ..) (List.length_replicate ..)
  have blanks : ∀ s ∈ List.replicate path.length blank, s = blank := fun s => List.eq_of_mem_replicate
  have fits : (N.payload q (.flood path x)).text.length < MAXDATASIZE := wanders.text ▸ short
  have loadable : (N.payload q (.flood path x)).Loadable :=
    carried.onPath asked (by decide) (Nat.le_refl _) sized fits
      (fun s member => blanks s member ▸ blank_token.mono (by decide)) fun s member => blanks s member ▸ blank_token
  have branch : udp_branch (N.station x) d.text = .ok
      { sent := (((N.station x).Neighbours.filter fun n => n.addr_and_port ∉ path.map N.recorded).map fun n =>
        ⟨n.ip_addr, n.udp_port, (N.payload q (.flood (path ++ [x]) x)).text⟩) } := by
    rw [wanders.text, loadable.udp_branch, ← payload_flooded path x x]
    exact handle_flood sized rfl fun same => wanders.missed same.symm
  simp only [react, wanders.leads, if_pos short, branch]
  rfl

/-- Every neighbour is sent the payload again. -/
theorem OnLocalhost.wanders_on (onLocalhost : N.OnLocalhost) {path : List V} {x y : V} {d : Datagram}
    (wanders : N.Wanders q path x d) (asked : N.Asked q) (linked : y ∈ N.nbrs x)
    (missed : N.name y ≠ q.destination) {out : List Datagram} {reports : List (V × PAYLOAD)}
    (reacts : N.react d = some (out, reports)) : ∃ d' ∈ out, N.Wanders q (path ++ [x]) y d' := by
  obtain ⟨short, _⟩ := react_at wanders.leads reacts
  rw [wanders.short_react onLocalhost.toCarried asked short, Option.some.injEq, Prod.mk.injEq] at reacts
  obtain ⟨n, member, leads⟩ := List.mem_filterMap.mp linked
  have unreached : n ∈ (N.station x).Neighbours.filter fun n => n.addr_and_port ∉ path.map N.recorded := by
    rw [List.mem_filter]
    exact ⟨member, decide_eq_true (onLocalhost.strange member path)⟩
  exact ⟨_, reacts.1 ▸ List.mem_map_of_mem unreached, leads, rfl, missed⟩

/-- It has become longer. -/
theorem Wanders.longer {path : List V} {x y : V} {d d' : Datagram} (wanders : N.Wanders q path x d)
    (onward : N.Wanders q (path ++ [x]) y d') : d.text.length < d'.text.length := by
  have grown := (N.payload q (.flood path x)).length_visited (N.station x) blank blank
  have low : (0 : ℤ) ≤ (N.payload q (.flood path x)).hops := Int.natCast_nonneg path.length
  have hops := figures_mono low (Int.le_add_one (Int.le_refl _))
  have current : (N.payload q (.flood path x)).current = (N.payload q (.flood path x)).hops := rfl
  rw [wanders.text, onward.text, ← payload_flooded path x y]
  rw [current] at grown
  simp only [Station.entered] at grown
  omega

/-- A neighbour that is not asked for, and that can send the payload back. -/
structure Detour (N : Network V) (q : Query V) (y : V) : Prop where
  there : y ∈ N.nbrs q.source
  back : q.source ∈ N.nbrs y
  missed : N.name y ≠ q.destination

/-- The payload goes to and fro between the two. -/
def Bounces (N : Network V) (q : Query V) (y : V) (f : Flight Datagram) : Prop :=
  ∃ path x, (x = q.source ∨ x = y) ∧ N.Wanders q path x f.msg

theorem OnLocalhost.bounces_on (onLocalhost : N.OnLocalhost) (asked : N.Asked q) {y : V} (detour : N.Detour q y) :
    Breeds N.react (N.Bounces q y) fun f => f.msg.text.length := by
  rintro f out reports ⟨path, x, here, wanders⟩ reacts
  obtain ⟨z, there, linked, missed⟩ : ∃ z, (z = q.source ∨ z = y) ∧ z ∈ N.nbrs x ∧ N.name z ≠ q.destination := by
    rcases here with rfl | rfl
    · exact ⟨y, .inr rfl, detour.there, detour.missed⟩
    · exact ⟨q.source, .inl rfl, detour.back, asked.away.symm⟩
  obtain ⟨d, sent, onward⟩ := onLocalhost.wanders_on wanders asked linked missed reacts
  exact ⟨⟨f.origin, f.msg :: f.trail, d⟩, mem_spawn.mpr ⟨d, sent, rfl⟩, ⟨_, z, there, onward⟩, wanders.longer onward⟩

theorem init_bounces (addressed : N.Addressed) (asked : N.Asked q) (y : V) (i : ℕ) :
    N.Bounces q y ⟨i, [], N.init q⟩ := by
  refine ⟨[], q.source, .inl rfl, addressed.home q.source, ?_, asked.away.symm⟩
  rw [init_eq]
  rfl

theorem OnLocalhost.never_rests (onLocalhost : N.OnLocalhost) {qs : List (Query V)} (member : q ∈ qs)
    (asked : N.Asked q) {y : V} (detour : N.Detour q y) {s : Pool Datagram (V × PAYLOAD)}
    (run : Runs N.react (launch (qs.map N.init)) s) : s.flying ≠ 0 ∧ ∃ t, Runs N.react s t ∧ ∃ f ∈ t.flying,
      (∃ x, N.resolve f.msg.ip f.msg.port = some x) ∧ MAXDATASIZE ≤ f.msg.text.length := by
  have breeds := onLocalhost.bounces_on asked detour
  have start : ∃ f ∈ (launch (qs.map N.init) : Pool Datagram (V × PAYLOAD)).flying, N.Bounces q y f := by
    obtain ⟨i, bound, there⟩ := List.getElem_of_mem (List.mem_map_of_mem (f := N.init) member)
    refine ⟨⟨i, [], N.init q⟩, ?_, init_bounces onLocalhost.toAddressed asked y i⟩
    exact Multiset.mem_coe.mpr (List.mem_mapIdx.mpr ⟨i, bound, by rw [there]⟩)
  have alive := breeds.runs run start
  constructor
  · intro quiet
    obtain ⟨f, flying, _⟩ := alive
    rw [quiet] at flying
    exact Multiset.notMem_zero f flying
  · obtain ⟨t, more, f, flying, ⟨path, x, _, wanders⟩, full⟩ := breeds.outgrows alive MAXDATASIZE
    refine ⟨t, more, f, flying, ⟨x, wanders.leads⟩, ?_⟩
    rcases full with stuck | long
    · by_contra short
      rw [wanders.short_react onLocalhost.toCarried asked (Nat.lt_of_not_le short)] at stuck
      cases stuck
    · exact long

/-- On one host a question never comes to rest if the station has another neighbour than the one asked
for: in whatever order datagrams are delivered, there is always one in flight, and the run can go on until
one overruns the buffer of the station that it is for. -/
theorem localhost_network_never_settles (onLocalhost : N.OnLocalhost) {qs : List (Query V)} (member : q ∈ qs)
    (asked : N.Asked q) {y : V} (detour : N.Detour q y) {s : Pool Datagram (V × PAYLOAD)}
    (run : Runs N.react (launch (qs.map N.init)) s) : s.flying ≠ 0 ∧ ∃ t, Runs N.react s t ∧ ∃ f ∈ t.flying,
      (∃ x, N.resolve f.msg.ip f.msg.port = some x) ∧ MAXDATASIZE ≤ f.msg.text.length :=
  onLocalhost.never_rests member asked detour run

theorem localStops_onLocalhost : localStops.OnLocalhost where
  name := by decide
  recorded := by decide
  endpoint x := by
    have plain : ∀ x, (localStops.port x).all (!isspace ·) = true := by decide
    have letters : ∀ c ∈ localStops.port x, isspace c = false := by simpa using plain x
    cases x <;> exact ⟨by decide, by decide, by decide, by decide, by decide, letters⟩
  home := by decide
  entries x e member := by
    have all : ∀ x, ∀ e ∈ (localStops.station x).copied, Token ' ' 5 e.departure_time ∧
        Token ' ' 60 e.route_name ∧ Token ' ' 5 e.arrival_time := by decide
    exact ⟨(all x e member).1, (all x e member).2.1, (all x e member).2.2⟩
  started_on x arg member := by
    cases x <;> exact ⟨_, List.mem_singleton.mp member⟩
  numeric := by decide

theorem localStops_never_settle : ∃ t, Runs localStops.react (launch ([toStationC].map localStops.init)) t ∧
    ∃ f ∈ t.flying, (∃ x, localStops.resolve f.msg.ip f.msg.port = some x) ∧ MAXDATASIZE ≤ f.msg.text.length :=
  (localhost_network_never_settles localStops_onLocalhost (List.mem_singleton_self toStationC)
    ⟨by decide, by decide, by decide⟩ (y := true) ⟨by decide, by decide, by decide⟩ .refl).2

end Network
end TransitNet
