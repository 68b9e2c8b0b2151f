import TransitNet.Protocol
import TransitNet.Twin

/-! A C station and a Python station at the same place handle a payload alike: only what
they write about times and routes may differ, and where the C station is the twin not
even that. -/
namespace TransitNet

/-- The payload is well placed for its phase at the station. -/
structure Station.Expects (st : Station) (p : PAYLOAD) : Prop where
  sized : p.Sized
  away : p.destination ≠ p.source
  phase : 0 ≤ p.found ∧ p.found ≤ 3
  flooding : p.found = 0 → p.current = p.hops ∧ st.station_name ∉ p.stations ∧ st.recorded ∉ p.address ∧
    ((p.hops = 0 ∧ p.source = st.station_name) ∨ p.stations[0]? = some p.source)
  onPath : p.found ≠ 0 → 2 ≤ p.hops ∧ p.stations[(p.current - 1).toNat]? = some st.station_name ∧
    p.stations[0]? = some p.source ∧ p.stations[(p.hops - 1).toNat]? = some p.destination
  passing : p.found = 1 ∨ p.found = 3 → 1 ≤ p.current ∧ p.current ≤ p.hops - 1
  riding : p.found = 2 → 2 ≤ p.current ∧ p.current ≤ p.hops

/-- Addresses and times that both stations can read. -/
structure PAYLOAD.Readable (p : PAYLOAD) : Prop where
  address : ∀ a ∈ p.address, ∃ ip port, Dotted ip port ∧ a = addressOf ip port
  time : ∀ t ∈ p.time, Timed t
  start_time : HHMM p.start_time

/-- The two payloads differ at most in their routes and times. -/
structure PAYLOAD.SameRoute (p p' : PAYLOAD) : Prop where
  found : p.found = p'.found
  hops : p.hops = p'.hops
  current : p.current = p'.current
  stations : p.stations = p'.stations
  address : p.address = p'.address
  destination : p.destination = p'.destination
  source : p.source = p'.source
  start_time : p.start_time = p'.start_time

theorem PAYLOAD.SameRoute.refl (p : PAYLOAD) : p.SameRoute p := ⟨rfl, rfl, rfl, rfl, rfl, rfl, rfl, rfl⟩

def Datagram.endpoint (d : Datagram) : Text × ℤ := (d.ip, intOf d.port)

def PyDatagram.endpoint (d : PyDatagram) : Text × ℤ := (d.ip_addr, d.udp_port)

def Outcome.numbered (outcome : Outcome) : PyOutcome where
  sent := outcome.sent.map fun d => ⟨d.ip, intOf d.port, d.text⟩
  finished := outcome.finished

/-- Same name, same address, same neighbours. -/
structure Alike (st : Station) (py : PyStation) : Prop where
  name : st.station_name = py.STATION_NAME
  recorded : st.recorded = py.recorded
  neighbours : ∀ n, n ∈ st.Neighbours ↔ n ∈ py.neighbours.map PyNeighbours.twin

/-- Both send to the same endpoints, each its own payload, and finish the same payload. -/
structure Agree (outcome : Outcome) (other : PyOutcome) (p p' : PAYLOAD) : Prop where
  text : ∀ d ∈ outcome.sent, craft_payload p = .ok d.text
  message : ∀ d ∈ other.sent, d.message = serialize p'
  same : p.SameRoute p'
  endpoints : ∀ e, e ∈ outcome.sent.map Datagram.endpoint ↔ e ∈ other.sent.map PyDatagram.endpoint
  finished : outcome.finished = other.finished

theorem intOf_printInt {i : ℤ} (nonneg : 0 ≤ i) : intOf (printInt i) = i := by
  obtain ⟨n, rfl⟩ := Int.eq_ofNat_of_zero_le nonneg
  rw [printInt_natCast, intOf_toDigits]

/-- Each sends one datagram. -/
theorem Agree.single {ip : Text} {port : ℤ} (dotted : Dotted ip port) {p p' : PAYLOAD} (sized : p.Sized)
    (same : p.SameRoute p') (looked : List ℤ) (searched : List Text) :
    Agree { sent := [⟨ip, printInt port, p.text⟩], looked, searched }
      { sent := [⟨ip, port, serialize p'⟩] } p p' where
  text d member := by rw [List.mem_singleton.mp member, craft_payload_text sized]
  message d member := by rw [List.mem_singleton.mp member]
  same := same
  endpoints e := by
    simp only [List.map_cons, List.map_nil, Datagram.endpoint, PyDatagram.endpoint,
      intOf_printInt dotted.port.1]
  finished := rfl

theorem numbered_single {ip : Text} {port : ℤ} (dotted : Dotted ip port) {p : PAYLOAD} (sized : p.Sized)
    (some : p.stations ≠ []) (looked : List ℤ) (searched : List Text) :
    ({ sent := [⟨ip, port, serialize p⟩] } : PyOutcome) =
      ({ sent := [⟨ip, printInt port, p.text⟩], looked, searched } : Outcome).numbered := by
  simp only [Outcome.numbered, List.map_cons, List.map_nil, intOf_printInt dotted.port.1,
    sized.serialize_text some]

theorem Alike.twin (py : PyStation) : Alike py.twin py := ⟨rfl, rfl, fun _ => Iff.rfl⟩

section Handlers
variable {st : Station} {py : PyStation} {p : PAYLOAD}

/-- What handling the payload comes to at a C station and at a Python station. -/
def Matched (st : Station) (py : PyStation) (p : PAYLOAD) : Prop := ∃ outcome other p₁ p₂,
  handle st p.slots p = .ok outcome ∧ py.handle p = .ok other ∧ Agree outcome other p₁ p₂ ∧
    (st = py.twin → (p.found = 1 → p.source = py.STATION_NAME → p.current = 1) → other = outcome.numbered)

/-- The common shape of all deliveries that send one datagram to a station on the path. -/
theorem Matched.single {ip : Text} {port : ℤ} (dotted : Dotted ip port) {p₁ p₂ : PAYLOAD} {looked : List ℤ}
    {searched : List Text}
    (ran : handle st p.slots p = .ok { sent := [⟨ip, printInt port, p₁.text⟩], looked, searched })
    (ran' : py.handle p = .ok { sent := [⟨ip, port, serialize p₂⟩] }) (same : p₁.SameRoute p₂)
    (sized : p₁.Sized) (sized' : p₂.Sized) (some : p₂.stations ≠ [])
    (equal : st = py.twin → (p.found = 1 → p.source = py.STATION_NAME → p.current = 1) → p₁ = p₂) :
    Matched st py p := by
  refine ⟨_, _, p₁, p₂, ran, ran', Agree.single dotted sized same looked searched, fun twin first => ?_⟩
  rw [equal twin first]
  exact numbered_single dotted sized' some looked searched

theorem PAYLOAD.Readable.address_at (readable : p.Readable) (h : p.Sized) {k : ℕ} (bound : (k : ℤ) < p.hops) :
    ∃ ip port, Dotted ip port ∧ p.address[k]? = some (addressOf ip port) := by
  have count := h.address
  have there := List.getElem?_eq_getElem (show k < p.address.length by omega)
  obtain ⟨ip, port, dotted, same⟩ := readable.address _ (List.mem_of_getElem? there)
  exact ⟨ip, port, dotted, by rw [there, same]⟩

theorem Alike.visited (alike : Alike st py) (p : PAYLOAD) (r t r' t' : Text) :
    (p.visited st r t).SameRoute (p.visited py.twin r' t') where
  found := rfl
  hops := rfl
  current := rfl
  stations := by
    simp only [PAYLOAD.visited, alike.name]
    rfl
  address := by
    simp only [PAYLOAD.visited, alike.recorded]
    rfl
  destination := rfl
  source := rfl
  start_time := rfl

/-- Both leave out the neighbours that the payload has been at. -/
theorem Alike.flooded (alike : Alike st py) (formed : py.Formed) (h : p.Sized) (fresh : p.found = 0)
    (place : p.current = p.hops) (elsewhere : p.destination ≠ st.station_name) : Matched st py p := by
  have ran := handle_flood h fresh elsewhere
  have ran' : py.handle p = _ := PyStation.handle_flood fresh place (alike.name ▸ elsewhere)
  have known : ∀ m ∈ py.neighbours, (addressOf m.ipaddr m.udpport ∉ (p.visited py.twin blank blank).address ↔
      m.twin.addr_and_port ∉ p.address) := by
    intro m member
    have own : addressOf m.ipaddr m.udpport ≠ py.twin.recorded := (formed.neighbours m member).2
    simp only [PAYLOAD.visited, List.mem_append, List.mem_singleton, own, or_false]
    rfl
  refine ⟨_, _, p.visited st blank blank, p.visited py.twin blank blank, ran, ran', ⟨?_, ?_,
    alike.visited p _ _ _ _, ?_, rfl⟩, ?_⟩
  · intro d member
    obtain ⟨n, _, rfl⟩ := List.mem_map.mp member
    exact craft_payload_text (h.visited st blank blank)
  · intro d member
    obtain ⟨n, _, rfl⟩ := List.mem_map.mp member
    rfl
  · intro e
    simp only [List.map_map, List.mem_map, List.mem_filter, decide_eq_true_eq, Function.comp_apply,
      Datagram.endpoint, PyDatagram.endpoint]
    constructor
    · rintro ⟨n, ⟨given, unreached⟩, rfl⟩
      obtain ⟨m, member, rfl⟩ := List.mem_map.mp ((alike.neighbours n).mp given)
      refine ⟨m, ⟨member, (known m member).mpr unreached⟩, ?_⟩
      rw [PyNeighbours.twin, intOf_printInt (formed.neighbours m member).1.port.1]
    · rintro ⟨m, ⟨member, unreached⟩, rfl⟩
      refine ⟨m.twin, ⟨(alike.neighbours _).mpr (List.mem_map_of_mem member),
        (known m member).mp unreached⟩, ?_⟩
      rw [PyNeighbours.twin, intOf_printInt (formed.neighbours m member).1.port.1]
  · rintro rfl _
    have sized := h.visited py.twin blank blank
    have some : (p.visited py.twin blank blank).stations ≠ [] := by simp [PAYLOAD.visited]
    have same : py.twin.Neighbours.filter (fun n => n.addr_and_port ∉ p.address) =
        (py.neighbours.filter fun m => addressOf m.ipaddr m.udpport ∉
          (p.visited py.twin blank blank).address).map PyNeighbours.twin := by
      have twins : py.twin.Neighbours = py.neighbours.map PyNeighbours.twin := rfl
      rw [twins, List.filter_map]
      congr 1
      apply List.filter_congr
      intro m member
      exact decide_eq_decide.mpr (known m member).symm
    simp only [Outcome.numbered, same, List.map_map, PyOutcome.mk.injEq, and_true]
    apply List.map_congr_left
    intro m member
    have dotted := (formed.neighbours m (List.mem_of_mem_filter member)).1
    simp only [Function.comp_apply, PyNeighbours.twin, intOf_printInt dotted.port.1,
      sized.serialize_text some]

theorem Alike.looking (alike : Alike st py) (formed : py.Formed) (expects : st.Expects p)
    (readable : p.Readable) (fresh : p.found = 0) : Matched st py p := by
  obtain ⟨place, _, _, start⟩ := expects.flooding fresh
  have sized := expects.sized
  by_cases here : p.destination = st.station_name
  · have away : p.source ≠ st.station_name := fun same => expects.away (here.trans same.symm)
    have nonempty : 1 ≤ p.hops := by
      have count := sized.stations
      rcases start with ⟨_, source⟩ | first
      · exact absurd source away
      · have bound := (List.getElem?_eq_some_iff.mp first).1
        omega
    obtain ⟨ip, port, dotted, there⟩ := readable.address_at sized (k := p.hops.toNat - 1) (by omega)
    have many : p.hops = (p.hops.toNat - 1 + 1 : ℕ) := by omega
    have ran := handle_reach sized fresh here away many there dotted.endpoint
    have ran' : py.handle p = _ := PyStation.handle_reach fresh place (here.trans alike.name) (alike.name ▸ away)
      many there dotted
    have visited := alike.visited p st.firstSlot.route_name st.firstSlot.arrival_time
      py.twin.firstSlot.route_name py.twin.firstSlot.arrival_time
    refine Matched.single dotted ran ran' ?_ (sized.turned st) (sized.turned py.twin) ?_ ?_
    · exact ⟨rfl, rfl, rfl, visited.stations, visited.address, rfl, rfl, rfl⟩
    · simp [PAYLOAD.turned, PAYLOAD.visited]
    · rintro rfl _
      rfl
  · exact alike.flooded formed sized fresh place here

theorem Station.Expects.station_at (expects : st.Expects p) {k : ℕ} (bound : (k : ℤ) < p.hops) :
    ∃ name, p.stations[k]? = some name := by
  have count := expects.sized.stations
  exact ⟨_, List.getElem?_eq_getElem (by omega)⟩

theorem ne_nil_of_get {i : ℕ} {s : Text} {xs : List Text} (there : xs[i]? = some s) : xs ≠ [] :=
  List.ne_nil_of_length_pos (Nat.lt_of_le_of_lt (Nat.zero_le i) (List.getElem?_eq_some_iff.mp there).1)

/-- At the source the forward pass begins; the Python station looks up its own departure
for the second station of the path, the C station for the one it boards for. -/
theorem Alike.turning (alike : Alike st py) (formed : py.Formed) (expects : st.Expects p)
    (readable : p.Readable) (named : ∀ s ∈ p.stations, ' ' ∉ s) (back : p.found = 1) (source : p.source = st.station_name) : Matched st py p := by
  have sized := expects.sized
  obtain ⟨two, _⟩ := expects.onPath (by omega)
  obtain ⟨low, high⟩ := expects.passing (.inl back)
  obtain ⟨k, place⟩ : ∃ k : ℕ, p.current = (k + 1 : ℕ) := ⟨p.current.toNat - 1, by omega⟩
  obtain ⟨first, second⟩ := expects.station_at (k := 1) (by omega)
  obtain ⟨next, onward⟩ := expects.station_at (k := k + 1) (by omega)
  obtain ⟨ip, port, dotted, there⟩ := readable.address_at sized (k := k + 1) (by omega)
  have count := sized.time
  have slot : ∀ d, ∃ t, (p.time.set 0 d)[k]? = some t := fun d =>
    ⟨_, List.getElem?_eq_getElem (by rw [List.length_set]; omega)⟩
  obtain ⟨t, now⟩ := slot (st.departure p.start_time next)
  obtain ⟨t', now'⟩ := slot (py.twin.departure p.start_time first)
  have timed : Timed t' := by
    rcases List.mem_or_eq_of_mem_set (List.mem_of_getElem? now') with old | rfl
    · exact readable.time t' old
    · exact formed.departure_timed _ _
  have other := named next (List.mem_of_getElem? onward)
  have ran := handle_turn sized back source place onward now there dotted.endpoint
  have ran' := formed.handle_turn sized back (source.trans alike.name) place second onward now' there
    dotted (.inl readable.start_time) timed (named first (List.mem_of_getElem? second)) other
  have departed : ∀ d, (p.departed d).Sized := fun d =>
    ⟨sized.stations, sized.address, sized.routes, by simp only [PAYLOAD.departed, List.length_set]; exact count⟩
  refine Matched.single dotted ran ran' ⟨rfl, rfl, rfl, rfl, rfl, rfl, rfl, rfl⟩ ((departed _).ridden k _)
    ((departed _).ridden k _) (ne_nil_of_get second) ?_
  · rintro rfl once
    obtain rfl : k = 0 := by
      have one := once back (source.trans alike.name)
      omega
    obtain rfl : first = next := Option.some.inj (second.symm.trans onward)
    obtain rfl : t = t' := Option.some.inj (now.symm.trans now')
    rfl

theorem Alike.passing (alike : Alike st py) (formed : py.Formed) (expects : st.Expects p)
    (readable : p.Readable) (named : ∀ s ∈ p.stations, ' ' ∉ s) (phase : p.found = 1 ∨ p.found = 3) : Matched st py p := by
  have sized := expects.sized
  obtain ⟨two, here, front, _⟩ := expects.onPath (by omega)
  obtain ⟨low, high⟩ := expects.passing phase
  by_cases source : p.source = st.station_name
  · rcases phase with back | home
    · exact alike.turning formed expects readable named back source
    · have ran : handle st p.slots p = _ := handle_finish home source
      have ran' : py.handle p = _ := PyStation.handle_finish home (source.trans alike.name)
      refine ⟨_, _, p, p, ran, ran', ⟨?_, ?_, .refl p, fun _ => Iff.rfl, rfl⟩, fun _ _ => rfl⟩
      · exact fun d member => absurd member List.not_mem_nil
      · exact fun d member => absurd member List.not_mem_nil
  · have later : p.current ≠ 1 := by
      intro one
      rw [one] at here
      exact source (Option.some.inj (front.symm.trans here))
    obtain ⟨k, place⟩ : ∃ k : ℕ, p.current = (k + 2 : ℕ) := ⟨p.current.toNat - 2, by omega⟩
    obtain ⟨ip, port, dotted, there⟩ := readable.address_at sized (k := k) (by omega)
    have ran := handle_back sized phase source place there dotted.endpoint
    have ran' : py.handle p = _ := PyStation.handle_back phase (alike.name ▸ source) place there dotted
    have moved : ∀ found current, { p with found := found, current := current }.Sized := fun _ _ =>
      ⟨sized.stations, sized.address, sized.routes, sized.time⟩
    exact Matched.single dotted ran ran' (.refl _) (moved _ _) (moved _ _) (ne_nil_of_get front) fun _ _ => rfl

theorem Alike.riding (alike : Alike st py) (formed : py.Formed) (expects : st.Expects p)
    (readable : p.Readable) (named : ∀ s ∈ p.stations, ' ' ∉ s) (riding : p.found = 2) : Matched st py p := by
  have sized := expects.sized
  obtain ⟨two, here, front, last⟩ := expects.onPath (by omega)
  obtain ⟨low, high⟩ := expects.riding riding
  by_cases reached : p.destination = st.station_name
  · have away : p.source ≠ st.station_name := fun same => expects.away (reached.trans same.symm)
    obtain ⟨k, place⟩ : ∃ k : ℕ, p.current = (k + 2 : ℕ) := ⟨p.current.toNat - 2, by omega⟩
    obtain ⟨ip, port, dotted, there⟩ := readable.address_at sized (k := k) (by omega)
    have ran := handle_arrive sized riding reached away place there dotted.endpoint
    have ran' : py.handle p = _ := PyStation.handle_arrive riding (reached.trans alike.name) (alike.name ▸ away)
      place there dotted
    have moved : ∀ found current, { p with found := found, current := current }.Sized := fun _ _ =>
      ⟨sized.stations, sized.address, sized.routes, sized.time⟩
    exact Matched.single dotted ran ran' (.refl _) (moved _ _) (moved _ _) (ne_nil_of_get front) fun _ _ => rfl
  · have before : p.current < p.hops := by
      refine lt_of_le_of_ne high fun final => reached ?_
      rw [final] at here
      exact Option.some.inj (last.symm.trans here)
    obtain ⟨k, place⟩ : ∃ k : ℕ, p.current = (k + 1 : ℕ) := ⟨p.current.toNat - 1, by omega⟩
    obtain ⟨next, onward⟩ := expects.station_at (k := k + 1) (by omega)
    obtain ⟨ip, port, dotted, there⟩ := readable.address_at sized (k := k + 1) (by omega)
    have count := sized.time
    have now := List.getElem?_eq_getElem (show k < p.time.length by omega)
    have timed := readable.time _ (List.mem_of_getElem? now)
    have other := named next (List.mem_of_getElem? onward)
    have ran := handle_ride sized riding reached place now onward there dotted.endpoint
    have ran' := formed.handle_ride sized riding (alike.name ▸ reached) place now onward there dotted
      timed other
    refine Matched.single dotted ran ran' ⟨rfl, rfl, rfl, rfl, rfl, rfl, rfl, rfl⟩ (sized.ridden k _)
      (sized.ridden k _) (ne_nil_of_get front) ?_
    rintro rfl _
    rfl

theorem Alike.matched (alike : Alike st py) (formed : py.Formed) (expects : st.Expects p)
    (readable : p.Readable) (named : ∀ s ∈ p.stations, ' ' ∉ s) : Matched st py p := by
  have phase := expects.phase
  rcases (by omega : p.found = 0 ∨ p.found = 1 ∨ p.found = 2 ∨ p.found = 3) with fresh | back | ride | home
  · exact alike.looking formed expects readable fresh
  · exact alike.passing formed expects readable named (.inl back)
  · exact alike.riding formed expects readable named ride
  · exact alike.passing formed expects readable named (.inr home)

end Handlers

/-! ### Two stations at one place -/

/-- A C station and a Python station of one name and address, started with the same
neighbours, which are spelled as stations record their addresses. -/
structure SamePlace (st : Station) (py : PyStation) (argv argv' : List Text) : Prop where
  name : st.station_name = py.STATION_NAME
  local_ip : st.local_ip = py.local_ip
  port : st.UDP_port = printInt py.udp_port
  started : readneighbours argv = .ok st.Neighbours
  parsed : argv'.mapM PyNeighbours.parse = .ok py.neighbours
  same : ∀ arg, arg ∈ argv ↔ arg ∈ argv'
  others : ∀ arg ∈ argv, arg ≠ st.recorded ∧ ∃ ip port, Dotted ip port ∧ arg = addressOf ip port

section Place
variable {st : Station} {py : PyStation} {argv argv' : List Text} {p : PAYLOAD}

theorem SamePlace.recorded (place : SamePlace st py argv argv') : st.recorded = py.recorded := by
  rw [Station.recorded, PyStation.recorded, addressOf, place.local_ip, place.port]

theorem Dotted.readneighbour {ip : Text} {port : ℤ} (dotted : Dotted ip port) :
    readneighbour (addressOf ip port) = .ok (PyNeighbours.twin ⟨ip, port⟩) :=
  readneighbour_endpoint dotted.endpoint

/-- Both stations make the same of the arguments. -/
theorem SamePlace.alike (place : SamePlace st py argv argv') : Alike st py where
  name := place.name
  recorded := place.recorded
  neighbours n := by
    constructor
    · intro member
      obtain ⟨arg, given, read⟩ := (mapM_mem place.started).1 n member
      obtain ⟨_, ip, port, dotted, rfl⟩ := place.others arg given
      obtain ⟨m, known, parsed⟩ := (mapM_mem place.parsed).2 _ ((place.same _).mp given)
      rw [dotted.readneighbour, Except.ok.injEq] at read
      rw [dotted.parse, Except.ok.injEq] at parsed
      rw [← read, parsed]
      exact List.mem_map_of_mem known
    · intro member
      obtain ⟨m, known, rfl⟩ := List.mem_map.mp member
      obtain ⟨arg, given, parsed⟩ := (mapM_mem place.parsed).1 m known
      obtain ⟨_, ip, port, dotted, rfl⟩ := place.others arg ((place.same _).mpr given)
      obtain ⟨n, inside, read⟩ := (mapM_mem place.started).2 _ ((place.same _).mpr given)
      rw [dotted.readneighbour, Except.ok.injEq] at read
      rw [dotted.parse, Except.ok.injEq] at parsed
      rw [← parsed, read]
      exact inside

theorem SamePlace.formed (place : SamePlace st py argv argv') (entries : ∀ entry ∈ py.entries.drop 1,
    5 ≤ entry.length ∧ HHMM (columns entry).departure_time ∧ HHMM (columns entry).arrival_time) :
    py.Formed where
  entries := entries
  neighbours m member := by
    obtain ⟨arg, given, parsed⟩ := (mapM_mem place.parsed).1 m member
    obtain ⟨other, ip, port, dotted, rfl⟩ := place.others arg ((place.same _).mpr given)
    rw [dotted.parse, Except.ok.injEq] at parsed
    rw [← parsed]
    exact ⟨dotted, place.recorded ▸ other⟩

/-- A well placed payload has no negative counter. -/
theorem Station.Expects.loadable (expects : st.Expects p) {text : Text} (loaded : load_payload text = .ok p) :
    p.Loadable := by
  have hops := expects.sized.hops_nonneg
  have phase := expects.phase
  refine load_accepts loaded phase.1 hops ?_
  rcases (by omega : p.found = 0 ∨ (p.found = 1 ∨ p.found = 3) ∨ p.found = 2) with fresh | passing | riding
  · have place := (expects.flooding fresh).1
    omega
  · have bounds := expects.passing passing
    omega
  · have bounds := expects.riding riding
    omega

theorem Station.Expects.placed (expects : st.Expects p) : p.found = 0 ∨ p.current ≠ 0 := by
  have phase := expects.phase
  rcases (by omega : p.found = 0 ∨ (p.found = 1 ∨ p.found = 3) ∨ p.found = 2) with fresh | passing | riding
  · exact .inl fresh
  · have bounds := expects.passing passing
    exact .inr (by omega)
  · have bounds := expects.riding riding
    exact .inr (by omega)

end Place

theorem pyStationA_entries : ∀ entry ∈ pyStationA.entries.drop 1, 5 ≤ entry.length ∧
    HHMM (columns entry).departure_time ∧ HHMM (columns entry).arrival_time := by
  decide +kernel

theorem local_dotted {port : ℤ} (range : 0 ≤ port ∧ port < 65536) : Dotted "127.0.0.1".toList port :=
  ⟨by decide, by decide, by simp, range⟩

end TransitNet
