import TransitNet.Codec
import TransitNet.Timetable

/-! The UDP branch of the C station's main loop. -/
namespace TransitNet

structure Datagram where
  ip : Text
  port : Text
  text : Text
  deriving DecidableEq, Repr

/-- What one pass through the UDP branch does: the datagrams of `talk_to`, a payload
that reaches `found == 4`, every index used into `Timetable`, and the times in the
slots that the search of the forward pass starts from. -/
structure Outcome where
  sent : List Datagram
  finished : Option PAYLOAD := none
  looked : List ℤ := []
  searched : List Text := []
  deriving DecidableEq, Repr

/-- Writes a slot of an array with `slots` of them; `xs` are the slots written so far. -/
def writeSlot (slots i : ℤ) (v : Text) (xs : List Text) : Except Fault (List Text) :=
  if 0 ≤ i ∧ i < slots then .ok (xs.take i.toNat ++ v :: xs.drop (i.toNat + 1)) else .error .index

/-- The station adds itself to the path, at the destination and in the flood. -/
def record (st : Station) (slots : ℤ) (route_name arrival_time : Text) (pload : PAYLOAD) :
    Except Fault PAYLOAD := do
  let hops := pload.hops
  let address ← writeSlot slots hops st.recorded pload.address
  let stations ← writeSlot slots hops st.station_name pload.stations
  let routes ← writeSlot slots hops route_name pload.routes
  let time ← writeSlot slots hops arrival_time pload.time
  return { pload with hops := hops + 1, current := hops + 1, stations, address, routes, time }

/-- `if(!strcmp(pload.destination, Station.station_name))`. -/
def at_destination (st : Station) (slots : ℤ) (pload : PAYLOAD) : Except Fault (PAYLOAD × List ℤ) :=
  if pload.destination = st.station_name then
    if pload.found = 0 then do
      let pload ← record st slots st.firstSlot.route_name st.firstSlot.arrival_time pload
      return ({ pload with found := 1 }, [0, 0])
    else if pload.found = 2 then .ok ({ pload with found := 3 }, [])
    else .ok (pload, [])
  else .ok (pload, [])

def unreachable_time : Text := "99:99".toList

def unreachable_route : Text := "NOTFOUND".toList

def blank : Text := "...".toList

/-- What the source writes into `time[0]`, and the index it uses for that. -/
def departureAt (st : Station) (which : ℤ) : Except Fault (Text × List ℤ) :=
  if which = -1 then .ok (unreachable_time, [])
  else (st.entry which).map fun e => (e.departure_time, [which])

/-- What a station writes into `time[current]` and `routes[current]`. -/
def arrivalAt (st : Station) (which : ℤ) : Except Fault (Text × Text) :=
  if which = -1 then .ok (unreachable_time, unreachable_route)
  else (st.entry which).map fun e => (e.arrival_time, e.route_name)

/-- `if(!strcmp(pload.source, Station.station_name))`. -/
def at_source (st : Station) (slots : ℤ) (pload : PAYLOAD) : Except Fault (PAYLOAD × List ℤ) :=
  if pload.source = st.station_name then
    if pload.found = 1 then do
      let station_to_go ← slot pload.stations pload.current
      let which := st.search pload.start_time station_to_go
      let (departure, looked) ← departureAt st which
      let time ← writeSlot slots 0 departure pload.time
      return ({ pload with found := 2, time }, looked)
    else if pload.found = 3 then .ok ({ pload with found := 4 }, [])
    else .ok (pload, [])
  else .ok (pload, [])

/-- `found == 3`, and `found == 1` where the payload goes back as well. -/
def step_back (pload : PAYLOAD) : Except Fault Outcome := do
  let pload := { pload with current := pload.current - 1 }
  let (target_ip, target_port) ← get_ip_port pload pload.current
  let payload_tosend ← craft_payload pload
  return { sent := [⟨target_ip, target_port, payload_tosend⟩] }

/-- `found == 2`. The last line it prints looks into `Timetable` also when the search failed: `looked` keeps
that, it is no fault here. -/
def ride (st : Station) (slots : ℤ) (pload : PAYLOAD) : Except Fault Outcome := do
  let current := pload.current
  let starting_time ← slot pload.time (current - 1)
  let station_to_go ← slot pload.stations current
  let which := st.search starting_time station_to_go
  let (arrival, route) ← arrivalAt st which
  let time ← writeSlot slots current arrival pload.time
  let routes ← writeSlot slots current route pload.routes
  let pload := { pload with current := current + 1, time, routes }
  let (target_ip, target_port) ← get_ip_port pload pload.current
  let payload_tosend ← craft_payload pload
  return { sent := [⟨target_ip, target_port, payload_tosend⟩]
           looked := [which], searched := [starting_time] }

/-- The last `else`. The loop compares a neighbour with the addresses that were there
before the station added its own. -/
def flood (st : Station) (slots : ℤ) (pload : PAYLOAD) : Except Fault Outcome := do
  let hops := pload.hops
  let pload ← record st slots blank blank pload
  let unreached := st.Neighbours.filter fun n => n.addr_and_port ∉ pload.address.take hops.toNat
  let payload_tosend ← craft_payload pload
  return { sent := unreached.map fun n => ⟨n.ip_addr, n.udp_port, payload_tosend⟩ }

def dispatch (st : Station) (slots : ℤ) (pload : PAYLOAD) : Except Fault Outcome :=
  if pload.found = 4 then .ok { sent := [], finished := some pload }
  else if pload.found = 3 then step_back pload
  else if pload.found = 2 then ride st slots pload
  else if pload.found = 1 then step_back pload
  else flood st slots pload

/-- The branch once `load_payload` has returned. -/
def handle (st : Station) (slots : ℤ) (pload : PAYLOAD) : Except Fault Outcome := do
  let (pload, copied) ← at_destination st slots pload
  let (pload, boarded) ← at_source st slots pload
  let outcome ← dispatch st slots pload
  return { outcome with looked := copied ++ boarded ++ outcome.looked }

/-- A `current` that `load_payload` has not set is only used where the payload has been found; elsewhere
it is written first. -/
def udp_branch (st : Station) (buffer : Text) : Except Fault Outcome := do
  let pload ← load_payload buffer
  if counted buffer ∨ pload.found ∉ [1, 2, 3, 4] then handle st pload.slots pload else .error .unset

/-- What a station has written is handled as it has been loaded. -/
theorem PAYLOAD.Loadable.udp_wired {p : PAYLOAD} (h : p.Loadable) (n : ℕ) (st : Station) :
    udp_branch st (p.wired n) = handle st p.slots p := by
  rw [TransitNet.udp_branch, h.load_wired n]
  exact if_pos (.inl (h.counted_wired n))

theorem PAYLOAD.Loadable.udp_branch {p : PAYLOAD} (h : p.Loadable) (st : Station) :
    udp_branch st p.text = handle st p.slots p := h.udp_wired 0 st

/-- A payload on its flood, or one that says where it is, is handled as it has been loaded. -/
theorem udp_branch_loaded {buffer : Text} {p : PAYLOAD} (loaded : load_payload buffer = .ok p)
    (set : p.found = 0 ∨ p.current ≠ 0) (st : Station) : udp_branch st buffer = handle st p.slots p := by
  rw [udp_branch, loaded]
  refine if_pos ?_
  rcases set with fresh | current
  · exact .inr (by rw [fresh]; decide)
  · exact .inl (counted_of_current loaded current)

/-- What has run through has been loaded and handled. -/
theorem udp_branch_ok {st : Station} {buffer : Text} {outcome : Outcome} (ran : udp_branch st buffer = .ok outcome) :
    ∃ p, load_payload buffer = .ok p ∧ handle st p.slots p = .ok outcome := by
  obtain ⟨p, loaded, handled⟩ := ok_of_bind ran
  split at handled
  · exact ⟨p, loaded, handled⟩
  · cases handled

/-- `FINISH!`: the answer stored for the query afterwards; it is empty before the first. -/
def finish (st : Station) (answers : Text) (pload : PAYLOAD) : Except Fault Text := do
  let answer ← craft_payload pload
  if answers = [] then return answer
  let curr_payload ← load_payload answers
  let stored ← slot curr_payload.time (curr_payload.hops - 1)
  let arrived ← slot pload.time (pload.hops - 1)
  if timeToMinutes st.unset stored > timeToMinutes st.unset arrived then return answer
  return answers

/-! ### What the branch does in each phase and role -/

theorem writeSlot_next (slots : ℤ) (xs : List Text) (v : Text) (room : (xs.length : ℤ) < slots) :
    writeSlot slots xs.length v xs = .ok (xs ++ [v]) := by
  rw [writeSlot, if_pos ⟨by omega, room⟩, Int.toNat_natCast, List.take_length,
    List.drop_of_length_le (by omega)]

theorem writeSlot_old (slots : ℤ) (xs : List Text) (v : Text) {k : ℕ} (old : k < xs.length)
    (room : (xs.length : ℤ) ≤ slots) : writeSlot slots k v xs = .ok (xs.set k v) := by
  rw [writeSlot, if_pos ⟨by omega, by omega⟩, Int.toNat_natCast,
    List.set_eq_take_append_cons_drop, if_pos old]

/-- The payload with one station more on its path. -/
def PAYLOAD.visited (p : PAYLOAD) (st : Station) (route_name arrival_time : Text) : PAYLOAD :=
  { p with
    hops := p.hops + 1
    current := p.hops + 1
    stations := p.stations ++ [st.station_name]
    address := p.address ++ [st.recorded]
    routes := p.routes ++ [route_name]
    time := p.time ++ [arrival_time] }

/-- The payload as it leaves its destination for the first time. -/
def PAYLOAD.turned (p : PAYLOAD) (st : Station) : PAYLOAD :=
  { p.visited st st.firstSlot.route_name st.firstSlot.arrival_time with found := 1, current := p.hops }

/-- The payload as it leaves its source. -/
def PAYLOAD.departed (p : PAYLOAD) (departure : Text) : PAYLOAD :=
  { p with found := 2, time := p.time.set 0 departure }

/-- The payload with the slots behind the `k`-th filled. -/
def PAYLOAD.ridden (p : PAYLOAD) (k : ℕ) (leg : Text × Text) : PAYLOAD :=
  { p with
    current := (k + 2 : ℕ)
    routes := p.routes.set (k + 1) leg.2
    time := p.time.set (k + 1) leg.1 }

/-- Arrival and route of the entry boarded. -/
def Station.leg (st : Station) (starting_time station_to_go : Text) : Text × Text :=
  match st.boarding starting_time station_to_go with
  | some e => (e.arrival_time, e.route_name)
  | none => (unreachable_time, unreachable_route)

/-- Departure of the entry boarded. -/
def Station.departure (st : Station) (starting_time station_to_go : Text) : Text :=
  match st.boarding starting_time station_to_go with
  | some e => e.departure_time
  | none => unreachable_time

section Spec
variable {st : Station} {p : PAYLOAD}

theorem PAYLOAD.Sized.visited (h : p.Sized) (st : Station) (route_name arrival_time : Text) :
    (p.visited st route_name arrival_time).Sized := by
  obtain ⟨h₁, h₂, h₃, h₄⟩ := h
  refine ⟨?_, ?_, ?_, ?_⟩ <;>
    (simp only [PAYLOAD.visited, List.length_append, List.length_singleton]; omega)

theorem PAYLOAD.Sized.turned (h : p.Sized) (st : Station) : (p.turned st).Sized := by
  have grown := h.visited st st.firstSlot.route_name st.firstSlot.arrival_time
  exact ⟨grown.stations, grown.address, grown.routes, grown.time⟩

theorem PAYLOAD.Sized.ridden (h : p.Sized) (k : ℕ) (leg : Text × Text) : (p.ridden k leg).Sized := by
  obtain ⟨h₁, h₂, h₃, h₄⟩ := h
  refine ⟨h₁, h₂, ?_, ?_⟩ <;> (simp only [PAYLOAD.ridden, List.length_set]; assumption)

theorem record_eq (h : p.Sized) (fresh : p.found = 0) (route_name arrival_time : Text) :
    record st p.slots route_name arrival_time p = .ok (p.visited st route_name arrival_time) := by
  obtain ⟨h₁, h₂, h₃, h₄⟩ := h
  have slots : p.slots = p.hops + 1 := by rw [PAYLOAD.slots, if_pos fresh]
  have w₁ := writeSlot_next p.slots p.stations st.station_name (by omega)
  have w₂ := writeSlot_next p.slots p.address st.recorded (by omega)
  have w₃ := writeSlot_next p.slots p.routes route_name (by omega)
  have w₄ := writeSlot_next p.slots p.time arrival_time (by omega)
  rw [h₁] at w₁
  rw [h₂] at w₂
  rw [h₃] at w₃
  rw [h₄] at w₄
  simp only [record, w₁, w₂, w₃, w₄, bind, Except.bind, pure, Except.pure, PAYLOAD.visited]

theorem craft_payload_text (h : p.Sized) : craft_payload p = .ok p.text := craft_payload_eq h

theorem step_back_eq (h : p.Sized) {k : ℕ} {ip port : Text} (place : p.current = (k + 2 : ℕ))
    (there : p.address[k]? = some (ip ++ ':' :: port)) (ep : Endpoint ip port) :
    step_back p = .ok { sent := [⟨ip, port, { p with current := (k + 1 : ℕ) }.text⟩] } := by
  have before : p.current - 1 = (k + 1 : ℕ) := by omega
  have target : get_ip_port { p with current := (k + 1 : ℕ) } (k + 1 : ℕ) = .ok (ip, port) :=
    get_ip_port_endpoint ep there
  have text : craft_payload { p with current := (k + 1 : ℕ) } = .ok { p with current := (k + 1 : ℕ) }.text :=
    craft_payload_text ⟨h.stations, h.address, h.routes, h.time⟩
  simp only [step_back, before, target, text, bind, Except.bind, pure, Except.pure]

theorem arrivalAt_search (st : Station) (starting_time station_to_go : Text) :
    arrivalAt st (st.search starting_time station_to_go) = .ok (st.leg starting_time station_to_go) := by
  rcases st.search_cases starting_time station_to_go with ⟨miss, none⟩ | ⟨i, e, hit, some, entry, _⟩
  · rw [arrivalAt, if_pos miss, Station.leg, none]
  · rw [arrivalAt, hit, if_neg (by omega), entry, Station.leg, some]
    rfl

/-- The indices that the source uses when it looks up the departure. -/
def Station.glance (st : Station) (starting_time station_to_go : Text) : List ℤ :=
  if st.search starting_time station_to_go = -1 then [] else [st.search starting_time station_to_go]

theorem departureAt_search (st : Station) (starting_time station_to_go : Text) :
    departureAt st (st.search starting_time station_to_go) =
      .ok (st.departure starting_time station_to_go, st.glance starting_time station_to_go) := by
  rcases st.search_cases starting_time station_to_go with ⟨miss, none⟩ | ⟨i, e, hit, some, entry, _⟩
  · rw [departureAt, if_pos miss, Station.departure, none, Station.glance, if_pos miss]
  · rw [departureAt, Station.glance, hit, if_neg (by omega), if_neg (by omega), entry,
      Station.departure, some]
    rfl

theorem ride_eq (st : Station) (h : p.Sized) {slots : ℤ} (room : slots = p.hops) {k : ℕ} {ip port starting_time : Text}
    {station_to_go : Text} (place : p.current = (k + 1 : ℕ)) (now : p.time[k]? = some starting_time)
    (onward : p.stations[k + 1]? = some station_to_go)
    (there : p.address[k + 1]? = some (ip ++ ':' :: port)) (ep : Endpoint ip port) :
    ride st slots p = .ok
      { sent := [⟨ip, port, (p.ridden k (st.leg starting_time station_to_go)).text⟩]
        looked := [st.search starting_time station_to_go]
        searched := [starting_time] } := by
  obtain ⟨h₁, h₂, h₃, h₄⟩ := id h
  have inside := (List.getElem?_eq_some_iff.mp onward).1
  have before : ((k + 1 : ℕ) : ℤ) - 1 = k := by omega
  have after : ((k + 1 : ℕ) : ℤ) + 1 = (k + 2 : ℕ) := by omega
  have w₃ := writeSlot_old slots p.routes (k := k + 1)
    (st.leg starting_time station_to_go).2 (by omega) (by omega)
  have w₄ := writeSlot_old slots p.time (k := k + 1)
    (st.leg starting_time station_to_go).1 (by omega) (by omega)
  have target : get_ip_port (p.ridden k (st.leg starting_time station_to_go)) (k + 2 : ℕ) = .ok (ip, port) :=
    get_ip_port_endpoint ep there
  have text := craft_payload_text (h.ridden k (st.leg starting_time station_to_go))
  simp only [PAYLOAD.ridden] at target text
  simp only [ride, place, before, slot_nat now, slot_nat onward, arrivalAt_search, w₃, w₄, after,
    target, text, bind, Except.bind, pure, Except.pure, PAYLOAD.ridden]

/-- A payload that is still looking for its destination floods on. -/
theorem handle_flood (h : p.Sized) (fresh : p.found = 0) (elsewhere : p.destination ≠ st.station_name) :
    handle st p.slots p = .ok
      { sent := (st.Neighbours.filter fun n => n.addr_and_port ∉ p.address).map
          fun n => ⟨n.ip_addr, n.udp_port, (p.visited st blank blank).text⟩ } := by
  have destination : at_destination st p.slots p = .ok (p, []) := by
    rw [at_destination, if_neg elsewhere]
  have source : at_source st p.slots p = .ok (p, []) := by
    simp only [at_source, fresh]
    split <;> rfl
  have known : (p.visited st blank blank).address.take p.hops.toNat = p.address := by
    have size := h.address
    rw [PAYLOAD.visited, List.take_left' (by omega)]
  have text := craft_payload_text (h.visited st blank blank)
  simp only [handle, destination, source, dispatch, fresh, flood, record_eq h fresh, known, text, bind,
    Except.bind, pure, Except.pure]
  rfl

/-- A payload that reaches its destination turns round there. -/
theorem handle_reach (h : p.Sized) (fresh : p.found = 0) (here : p.destination = st.station_name)
    (away : p.source ≠ st.station_name) {k : ℕ} {ip port : Text} (place : p.hops = (k + 1 : ℕ))
    (there : p.address[k]? = some (ip ++ ':' :: port)) (ep : Endpoint ip port) :
    handle st p.slots p = .ok
      { sent := [⟨ip, port, (p.turned st).text⟩], looked := [0, 0] } := by
  let q : PAYLOAD := { p.visited st st.firstSlot.route_name st.firstSlot.arrival_time with found := 1 }
  have destination : at_destination st p.slots p = .ok (q, [0, 0]) := by
    simp only [at_destination, if_pos here, fresh, record_eq h fresh, bind, Except.bind, pure,
      Except.pure, if_true, q]
  have source : at_source st p.slots q = .ok (q, []) := by
    rw [at_source, if_neg]
    exact away
  have sized : q.Sized := by
    have grown := h.visited st st.firstSlot.route_name st.firstSlot.arrival_time
    exact ⟨grown.stations, grown.address, grown.routes, grown.time⟩
  have spot : q.address[k]? = some (ip ++ ':' :: port) := by
    simp only [q, PAYLOAD.visited]
    rw [List.getElem?_append_left (List.getElem?_eq_some_iff.mp there).1, there]
  have current : q.current = (k + 2 : ℕ) := by
    simp only [q, PAYLOAD.visited, place]
    omega
  simp only [handle, destination, source, bind, Except.bind]
  have sent : dispatch st p.slots q = step_back q := rfl
  have turned : p.turned st = { q with current := (k + 1 : ℕ) } := by
    simp only [PAYLOAD.turned, place, q]
  rw [sent, step_back_eq sized current spot ep, turned]
  rfl

/-- On its way back or home a payload passes the stations between. -/
theorem handle_back (h : p.Sized) (phase : p.found = 1 ∨ p.found = 3) (away : p.source ≠ st.station_name)
    {k : ℕ} {ip port : Text} (place : p.current = (k + 2 : ℕ))
    (there : p.address[k]? = some (ip ++ ':' :: port)) (ep : Endpoint ip port) :
    handle st p.slots p = .ok
      { sent := [⟨ip, port, { p with current := (k + 1 : ℕ) }.text⟩] } := by
  have destination : at_destination st p.slots p = .ok (p, []) := by
    rcases phase with back | home
    · simp only [at_destination, back]
      split <;> rfl
    · simp only [at_destination, home]
      split <;> rfl
  have source : at_source st p.slots p = .ok (p, []) := by
    rw [at_source, if_neg away]
  have sent : dispatch st p.slots p = step_back p := by
    rcases phase with back | home
    · simp only [dispatch, back]
      rfl
    · simp only [dispatch, home]
      rfl
  simp only [handle, destination, source, sent, step_back_eq h place there ep, bind, Except.bind, pure,
    Except.pure, List.append_nil]

/-- At its source a payload boards the first leg. -/
theorem handle_turn (h : p.Sized) (back : p.found = 1) (here : p.source = st.station_name) {k : ℕ}
    {ip port starting_time station_to_go : Text} (place : p.current = (k + 1 : ℕ))
    (onward : p.stations[k + 1]? = some station_to_go)
    (now : (p.time.set 0 (st.departure p.start_time station_to_go))[k]? = some starting_time)
    (there : p.address[k + 1]? = some (ip ++ ':' :: port)) (ep : Endpoint ip port) :
    handle st p.slots p = .ok
      { sent := [⟨ip, port, ((p.departed (st.departure p.start_time station_to_go)).ridden k
          (st.leg starting_time station_to_go)).text⟩]
        looked := st.glance p.start_time station_to_go ++ [st.search starting_time station_to_go]
        searched := [starting_time] } := by
  have room : p.slots = p.hops := by rw [PAYLOAD.slots, back]; rfl
  have inside := (List.getElem?_eq_some_iff.mp onward).1
  obtain ⟨h₁, h₂, h₃, h₄⟩ := id h
  have destination : at_destination st p.slots p = .ok (p, []) := by
    simp only [at_destination, back]
    split <;> rfl
  have first := writeSlot_old p.slots p.time (k := 0)
    (st.departure p.start_time station_to_go) (by omega) (by omega)
  have source : at_source st p.slots p = .ok
      (p.departed (st.departure p.start_time station_to_go), st.glance p.start_time station_to_go) := by
    rw [Nat.cast_zero] at first
    simp only [at_source, if_pos here, back, if_true, place, slot_nat onward, departureAt_search, first,
      bind, Except.bind, pure, Except.pure, PAYLOAD.departed]
  have sized : (p.departed (st.departure p.start_time station_to_go)).Sized :=
    ⟨h₁, h₂, h₃, by simp only [PAYLOAD.departed, List.length_set]; exact h₄⟩
  have boarded := ride_eq st sized room place now onward there ep
  have sent : dispatch st p.slots (p.departed (st.departure p.start_time station_to_go)) =
      ride st p.slots (p.departed (st.departure p.start_time station_to_go)) := rfl
  simp only [handle, destination, source, sent, boarded, bind, Except.bind, pure, Except.pure,
    List.nil_append]

/-- Between source and destination a payload boards the next leg. -/
theorem handle_ride (h : p.Sized) (riding : p.found = 2) (elsewhere : p.destination ≠ st.station_name)
    {k : ℕ} {ip port starting_time station_to_go : Text} (place : p.current = (k + 1 : ℕ))
    (now : p.time[k]? = some starting_time) (onward : p.stations[k + 1]? = some station_to_go)
    (there : p.address[k + 1]? = some (ip ++ ':' :: port)) (ep : Endpoint ip port) :
    handle st p.slots p = .ok
      { sent := [⟨ip, port, (p.ridden k (st.leg starting_time station_to_go)).text⟩]
        looked := [st.search starting_time station_to_go]
        searched := [starting_time] } := by
  have room : p.slots = p.hops := by rw [PAYLOAD.slots, riding]; rfl
  have destination : at_destination st p.slots p = .ok (p, []) := by
    rw [at_destination, if_neg elsewhere]
  have source : at_source st p.slots p = .ok (p, []) := by
    simp only [at_source, riding]
    split <;> rfl
  have sent : dispatch st p.slots p = ride st p.slots p := by
    simp only [dispatch, riding]
    rfl
  simp only [handle, destination, source, sent, ride_eq st h room place now onward there ep, bind,
    Except.bind, pure, Except.pure, List.nil_append]

/-- A payload that has ridden to its destination goes home. -/
theorem handle_arrive (h : p.Sized) (riding : p.found = 2) (here : p.destination = st.station_name)
    (away : p.source ≠ st.station_name) {k : ℕ} {ip port : Text} (place : p.current = (k + 2 : ℕ))
    (there : p.address[k]? = some (ip ++ ':' :: port)) (ep : Endpoint ip port) :
    handle st p.slots p = .ok
      { sent := [⟨ip, port, { p with found := 3, current := (k + 1 : ℕ) }.text⟩] } := by
  have destination : at_destination st p.slots p = .ok ({ p with found := 3 }, []) := by
    simp only [at_destination, if_pos here, riding]
    rfl
  have source : at_source st p.slots { p with found := 3 } = .ok ({ p with found := 3 }, []) := by
    rw [at_source, if_neg away]
  have sized : { p with found := 3 }.Sized := ⟨h.stations, h.address, h.routes, h.time⟩
  have sent : dispatch st p.slots { p with found := 3 } = step_back { p with found := 3 } := rfl
  simp only [handle, destination, source, sent, step_back_eq sized place there ep, bind, Except.bind,
    pure, Except.pure, List.append_nil]

/-- Back at its source a payload is finished. -/
theorem handle_finish (home : p.found = 3) (here : p.source = st.station_name) :
    handle st p.slots p = .ok { sent := [], finished := some { p with found := 4 } } := by
  have destination : at_destination st p.slots p = .ok (p, []) := by
    simp only [at_destination, home]
    split <;> rfl
  have source : at_source st p.slots p = .ok ({ p with found := 4 }, []) := by
    simp only [at_source, if_pos here, home]
    rfl
  simp only [handle, destination, source, dispatch, bind, Except.bind, pure, Except.pure, if_true,
    List.append_nil]

/-! ### Only a flood sends payloads that still look for their destination -/

theorem step_back_found {outcome : Outcome} (ran : step_back p = .ok outcome) :
    ∀ d ∈ outcome.sent, ∃ rest, d.text = printInt p.found ++ ' ' :: rest := by
  simp only [step_back] at ran
  obtain ⟨_, _, ran⟩ := ok_of_bind ran
  obtain ⟨text, crafted, ran⟩ := ok_of_bind ran
  obtain ⟨rest, front⟩ := craft_payload_found crafted
  cases ran
  intro d member
  rw [List.mem_singleton] at member
  exact ⟨rest, member ▸ front⟩

theorem ride_found {slots : ℤ} {outcome : Outcome} (ran : ride st slots p = .ok outcome) :
    ∀ d ∈ outcome.sent, ∃ rest, d.text = printInt p.found ++ ' ' :: rest := by
  simp only [ride] at ran
  obtain ⟨_, _, ran⟩ := ok_of_bind ran
  obtain ⟨_, _, ran⟩ := ok_of_bind ran
  obtain ⟨_, _, ran⟩ := ok_of_bind ran
  obtain ⟨_, _, ran⟩ := ok_of_bind ran
  obtain ⟨_, _, ran⟩ := ok_of_bind ran
  obtain ⟨_, _, ran⟩ := ok_of_bind ran
  obtain ⟨text, crafted, ran⟩ := ok_of_bind ran
  obtain ⟨rest, front⟩ := craft_payload_found crafted
  cases ran
  intro d member
  rw [List.mem_singleton] at member
  exact ⟨rest, member ▸ front⟩

/-- A payload that has been found is never put back to looking; with another
counter than those of the protocol the flood runs out of its slots. -/
theorem dispatch_found {slots : ℤ} {outcome : Outcome} (ran : dispatch st slots p = .ok outcome)
    (found : p.found = 1 ∨ p.found = 2 ∨ slots ≤ p.hops) :
    ∀ d ∈ outcome.sent, ∀ p', load_payload d.text = .ok p' → p'.found ≠ 0 := by
  have phase : ∀ i : ℤ, 1 ≤ i ∧ i ≤ 3 → p.found = i →
      (∀ d ∈ outcome.sent, ∃ rest, d.text = printInt p.found ++ ' ' :: rest) →
        ∀ d ∈ outcome.sent, ∀ p', load_payload d.text = .ok p' → p'.found ≠ 0 := by
    intro i range same front d member p' loaded
    obtain ⟨rest, text⟩ := front d member
    rw [text, same] at loaded
    have found := load_found (by simp only [INT_MAX]; omega) loaded
    omega
  rw [dispatch] at ran
  split at ran
  · cases ran
    intro d member
    cases member
  · split at ran
    · exact phase 3 (by decide) (by assumption) (step_back_found ran)
    · split at ran
      · exact phase 2 (by decide) (by assumption) (ride_found ran)
      · split at ran
        · exact phase 1 (by decide) (by assumption) (step_back_found ran)
        · have full : slots ≤ p.hops := by omega
          simp only [flood, record] at ran
          obtain ⟨_, recorded, _⟩ := ok_of_bind ran
          obtain ⟨_, written, _⟩ := ok_of_bind recorded
          rw [writeSlot, if_neg (by omega)] at written
          cases written

theorem handle_found {outcome : Outcome} (ran : handle st p.slots p = .ok outcome)
    (met : p.found ≠ 0 ∨ p.destination = st.station_name) :
    ∀ d ∈ outcome.sent, ∀ p', load_payload d.text = .ok p' → p'.found ≠ 0 := by
  simp only [handle] at ran
  obtain ⟨⟨p₁, _⟩, destination, ran⟩ := ok_of_bind ran
  obtain ⟨⟨p₂, _⟩, source, ran⟩ := ok_of_bind ran
  obtain ⟨sent, dispatched, ran⟩ := ok_of_bind ran
  cases ran
  have first : p₁.found = 1 ∨ p.slots ≤ p₁.hops := by
    rw [at_destination] at destination
    split at destination
    · split at destination
      · obtain ⟨_, _, rest⟩ := ok_of_bind destination
        cases rest
        exact .inl rfl
      · have full : p.slots = p.hops := by rw [PAYLOAD.slots, if_neg (by assumption)]
        split at destination <;> (cases destination; exact .inr (Int.le_of_eq full))
    · have full : p.slots = p.hops := by
        rw [PAYLOAD.slots, if_neg (met.resolve_right (by assumption))]
      cases destination
      exact .inr (Int.le_of_eq full)
  have second : p₂.found = 1 ∨ p₂.found = 2 ∨ p.slots ≤ p₂.hops := by
    rw [at_source] at source
    split at source
    · split at source
      · obtain ⟨_, _, rest⟩ := ok_of_bind source
        obtain ⟨⟨_, _⟩, _, rest⟩ := ok_of_bind rest
        obtain ⟨_, _, rest⟩ := ok_of_bind rest
        cases rest
        exact .inr (.inl rfl)
      · have full : p.slots ≤ p₁.hops := first.resolve_left (by assumption)
        split at source <;> (cases source; exact .inr (.inr full))
    · cases source
      exact first.imp_right .inr
  intro d member
  exact dispatch_found dispatched second d member

/-! ### Only a payload that is complete is finished -/

theorem dispatch_finished {slots : ℤ} {outcome : Outcome} {r : PAYLOAD}
    (ran : dispatch st slots p = .ok outcome) (done : outcome.finished = some r) : p.found = 4 ∧ r = p := by
  have none : ∀ {x : Except Fault Outcome}, x = .ok outcome →
      (∀ o, x = .ok o → o.finished = none) → False := by
    intro x same unfinished
    rw [unfinished outcome same] at done
    cases done
  have back : ∀ o, step_back p = .ok o → o.finished = .none := by
    intro o stepped
    simp only [step_back] at stepped
    obtain ⟨_, _, stepped⟩ := ok_of_bind stepped
    obtain ⟨_, _, stepped⟩ := ok_of_bind stepped
    cases stepped
    rfl
  rw [dispatch] at ran
  split at ran
  · cases ran
    exact ⟨by assumption, (Option.some.inj done).symm⟩
  · split at ran
    · exact (none ran back).elim
    · split at ran
      · refine (none ran fun o rode => ?_).elim
        simp only [ride] at rode
        obtain ⟨_, _, rode⟩ := ok_of_bind rode
        obtain ⟨_, _, rode⟩ := ok_of_bind rode
        obtain ⟨_, _, rode⟩ := ok_of_bind rode
        obtain ⟨_, _, rode⟩ := ok_of_bind rode
        obtain ⟨_, _, rode⟩ := ok_of_bind rode
        obtain ⟨_, _, rode⟩ := ok_of_bind rode
        obtain ⟨_, _, rode⟩ := ok_of_bind rode
        cases rode
        rfl
      · split at ran
        · exact (none ran back).elim
        · refine (none ran fun o flooded => ?_).elim
          simp only [flood] at flooded
          obtain ⟨_, _, flooded⟩ := ok_of_bind flooded
          obtain ⟨_, _, flooded⟩ := ok_of_bind flooded
          cases flooded
          rfl

/-- A finished payload is the one received, but for the counter. -/
theorem handle_finished {slots : ℤ} {outcome : Outcome} {r : PAYLOAD}
    (ran : handle st slots p = .ok outcome) (done : outcome.finished = some r) :
    r = { p with found := 4 } := by
  simp only [handle] at ran
  obtain ⟨⟨p₁, _⟩, destination, ran⟩ := ok_of_bind ran
  obtain ⟨⟨p₂, _⟩, source, ran⟩ := ok_of_bind ran
  obtain ⟨sent, dispatched, ran⟩ := ok_of_bind ran
  cases ran
  obtain ⟨complete, rfl⟩ := dispatch_finished dispatched done
  have first : p₁ = { p with found := 3 } ∨ p₁.found = 1 ∨ p₁ = p := by
    rw [at_destination] at destination
    split at destination
    · split at destination
      · obtain ⟨_, _, rest⟩ := ok_of_bind destination
        cases rest
        exact .inr (.inl rfl)
      · split at destination <;> cases destination
        · exact .inl rfl
        · exact .inr (.inr rfl)
    · cases destination
      exact .inr (.inr rfl)
  have second : r = { p₁ with found := 4 } ∧ p₁.found ≠ 1 := by
    rw [at_source] at source
    split at source
    · split at source
      · obtain ⟨_, _, rest⟩ := ok_of_bind source
        obtain ⟨⟨_, _⟩, _, rest⟩ := ok_of_bind rest
        obtain ⟨_, _, rest⟩ := ok_of_bind rest
        cases rest
        cases complete
      · split at source <;> cases source
        · exact ⟨rfl, by assumption⟩
        · exact ⟨by rw [← complete], by assumption⟩
    · cases source
      exact ⟨by rw [← complete], by rw [complete]; decide⟩
  rcases first with rfl | back | rfl
  · exact second.1
  · exact absurd back second.2
  · exact second.1

end Spec
end TransitNet
