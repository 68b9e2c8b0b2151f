import TransitNet.Capacity
import TransitNet.Strays

/-! Networks in which some stations run the C program and some the Python program, and the texts
that both programs read alike. -/
namespace TransitNet
open Soup Relay Journey Words Utf8

/-- A station, by the program that it runs. -/
inductive Program
  | c (st : Station)
  | py (st : PyStation)

namespace Program

/-- The C station at the place: the station itself, or its twin. -/
def station : Program → Station
  | .c st => st
  | .py st => st.twin

def udp_port : Program → ℤ
  | .c st => intOf st.UDP_port
  | .py st => st.udp_port

/-- The program has read its neighbours from these arguments. -/
def Started (argv : List Text) : Program → Prop
  | .c st => readneighbours argv = .ok st.Neighbours
  | .py st => argv.mapM PyNeighbours.parse = .ok st.neighbours

/-- One delivery of the bytes of a datagram: what is sent, and the payload that finishes. The
Python station cuts off what its buffer does not hold. -/
def deliver (datagram : Text) : Program → Option (List PyDatagram × Option PAYLOAD)
  | .c st =>
      if datagram.length < MAXDATASIZE then
        match udp_branch st datagram with
        | .ok outcome => some (outcome.numbered.sent, outcome.finished)
        | .error _ => none
      else none
  | .py st =>
      match decode (datagram.take 1024) with
      | none => none
      | some data =>
          match st.udp_branch data with
          | .ok outcome =>
              some (outcome.sent.map fun d => { d with message := sendto d.message }, outcome.finished)
          | .error _ => none

/-- The init payload that the station sends to itself. -/
def ask (destination start_time : Text) : Program → PyDatagram
  | .c st => ⟨st.local_ip, intOf st.UDP_port, initText destination st.station_name start_time⟩
  | .py st => { st.ask destination start_time with message := sendto (st.ask destination start_time).message }

end Program

structure MixedNetwork (V : Type*) where
  program : V → Program
  argv : V → List Text
  started : ∀ x, (program x).Started (argv x)
  resolve : Text → ℤ → Option V

/-- ASCII only, as it has to be where one program counts bytes and the other characters. -/
structure Printed (limit : ℕ) (s : Text) : Prop extends Field limit s where
  ascii : ∀ c ∈ s, c.toNat < 128

/-- Times of day, and routes that fit. -/
def Program.Scheduled : Program → Prop
  | .c st => ∀ e ∈ st.copied, HHMM e.departure_time ∧ HHMM e.arrival_time ∧ Printed 60 e.route_name
  | .py st => ∀ entry ∈ st.entries.drop 1, 5 ≤ entry.length ∧ HHMM (columns entry).departure_time ∧
      HHMM (columns entry).arrival_time ∧ Printed 60 (columns entry).route_name

variable {V : Type*} {M : MixedNetwork V}

namespace MixedNetwork

abbrev name (M : MixedNetwork V) (x : V) : Text := (M.program x).station.station_name
abbrev ip (M : MixedNetwork V) (x : V) : Text := (M.program x).station.local_ip
abbrev port (M : MixedNetwork V) (x : V) : ℤ := (M.program x).udp_port
abbrev recorded (M : MixedNetwork V) (x : V) : Text := (M.program x).station.recorded

def react (M : MixedNetwork V) : Reaction PyDatagram (V × PAYLOAD) := fun d =>
  match M.resolve d.ip_addr d.udp_port with
  | none => some ([], [])
  | some x => ((M.program x).deliver d.message).map fun r => (r.1, r.2.toList.map (Prod.mk x))

def init (M : MixedNetwork V) (q : Query V) : PyDatagram :=
  (M.program q.source).ask q.destination q.start_time

structure Wired (M : MixedNetwork V) : Prop where
  names : Function.Injective M.name
  dotted : ∀ x, Dotted (M.ip x) (M.port x)
  spelled : ∀ x, (M.program x).station.UDP_port = printInt (M.port x)
  home : ∀ x, M.resolve (M.ip x) (M.port x) = some x
  others : ∀ x, ∀ arg ∈ M.argv x, ∃ y, y ≠ x ∧ arg = M.recorded y

structure Regular (M : MixedNetwork V) : Prop extends M.Wired where
  name : ∀ x, Printed 60 (M.name x)
  scheduled : ∀ x, (M.program x).Scheduled

structure Asked (M : MixedNetwork V) (q : Query V) : Prop where
  destination : Printed 60 q.destination
  start_time : HHMM q.start_time
  away : q.destination ≠ M.name q.source

theorem Wired.recorded_eq (h : M.Wired) (x : V) : M.recorded x = addressOf (M.ip x) (M.port x) := by
  rw [recorded, Station.recorded, h.spelled x]
  rfl

end MixedNetwork

theorem PyNeighbours.twins_read {argv : List Text} {ns : List PyNeighbours}
    (started : argv.mapM PyNeighbours.parse = .ok ns)
    (spelled : ∀ arg ∈ argv, ∃ ip port, Dotted ip port ∧ arg = addressOf ip port) :
    TransitNet.readneighbours argv = .ok (ns.map PyNeighbours.twin) := by
  unfold TransitNet.readneighbours
  induction argv generalizing ns with
  | nil =>
      cases started
      rfl
  | cons arg argv ih =>
      rw [List.mapM_cons] at started
      obtain ⟨n, first, started⟩ := ok_of_bind started
      obtain ⟨rest, later, started⟩ := ok_of_bind started
      cases started
      obtain ⟨ip, port, dotted, rfl⟩ := spelled arg List.mem_cons_self
      rw [dotted.parse, Except.ok.injEq] at first
      rw [List.mapM_cons, dotted.readneighbour, ih later fun a member => spelled a (List.mem_cons_of_mem _ member),
        ← first]
      rfl

/-! ### The same stations in C -/

namespace MixedNetwork

theorem Wired.readneighbours (h : M.Wired) (x : V) :
    readneighbours (M.argv x) = .ok (M.program x).station.Neighbours := by
  have spelled : ∀ arg ∈ M.argv x, ∃ ip port, Dotted ip port ∧ arg = addressOf ip port := by
    intro arg given
    obtain ⟨y, _, rfl⟩ := h.others x arg given
    exact ⟨_, _, h.dotted y, h.recorded_eq y⟩
  have started := M.started x
  generalize M.argv x = argv, M.program x = program at started spelled
  cases program with
  | c st => exact started
  | py st => exact PyNeighbours.twins_read started spelled

/-- The network with a C station in the place of each Python station. -/
def Wired.network (h : M.Wired) : Network V where
  station x := (M.program x).station
  argv := M.argv
  started := h.readneighbours
  resolve ip port := M.resolve ip (intOf port)

theorem Wired.network_wired (h : M.Wired) : h.network.Wired where
  names := h.names
  endpoint x := by
    have endpoint := (h.dotted x).endpoint
    rwa [← h.spelled x] at endpoint
  home x := by
    have number := intOf_printInt (h.dotted x).port.1
    rw [← h.spelled x] at number
    exact (congrArg (M.resolve (M.ip x)) number).trans (h.home x)
  others := h.others

end MixedNetwork

theorem HHMM.printed {s : Text} (h : HHMM s) : Printed 5 s := by
  obtain ⟨hours, minutes, early, short, rfl⟩ := h
  have letter : ∀ c ∈ clock hours minutes, c.isDigit = true ∨ c = ':' := by
    intro c member
    rw [clock, List.mem_append, List.mem_cons] at member
    rcases member with digit | rfl | digit
    · exact .inl (twoDigits_digit (by omega) digit)
    · exact .inr rfl
    · exact .inl (twoDigits_digit (by omega) digit)
  refine ⟨⟨⟨List.cons_ne_nil _ _, fun c member => ?_⟩, Nat.le_refl 5⟩, fun c member => ?_⟩
  · rcases letter c member with digit | rfl
    · exact digit_unbroken digit
    · decide
  · rcases letter c member with digit | rfl
    · exact digit_ascii digit
    · decide

theorem Dotted.printed {ip : Text} {port : ℤ} (h : Dotted ip port) : Printed 54 (addressOf ip port) := by
  obtain ⟨n, rfl, print, digits⟩ := h.digits
  have small := h.port.2
  have host := h.short
  have size : (Nat.toDigits 10 n).length ≤ 5 :=
    (Nat.length_toDigits_le_iff (by decide) (by decide)).mpr (by omega)
  have letter : ∀ c ∈ addressOf ip n, c.isDigit = true ∨ c = '.' ∨ c = ':' := by
    intro c member
    rw [addressOf, print, List.mem_append, List.mem_cons] at member
    rcases member with host | rfl | digit
    · exact (h.plain c host).imp id .inl
    · exact .inr (.inr rfl)
    · exact .inl (digits c digit)
  refine ⟨⟨⟨fun empty => absurd (List.append_eq_nil_iff.mp empty).2 (List.cons_ne_nil _ _), fun c member => ?_⟩, ?_⟩,
    fun c member => ?_⟩
  · rcases letter c member with digit | rfl | rfl
    · exact digit_unbroken digit
    · decide
    · decide
  · rw [addressOf, print, List.length_append, List.length_cons]
    omega
  · rcases letter c member with digit | rfl | rfl
    · exact digit_ascii digit
    · decide
    · decide

theorem Printed.mono {m n : ℕ} {s : Text} (h : Printed m s) (le : m ≤ n) : Printed n s :=
  ⟨h.toField.mono le, h.ascii⟩

instance (limit : ℕ) (s : Text) : Decidable (Printed limit s) :=
  decidable_of_iff (Field limit s ∧ s.all (·.toNat < 128) = true) (by
    rw [List.all_eq_true]
    exact ⟨fun h => ⟨h.1, fun c member => of_decide_eq_true (h.2 c member)⟩,
      fun h => ⟨h.toField, fun c member => decide_eq_true (h.ascii c member)⟩⟩)

theorem Timed.printed {s : Text} (h : Timed s) : Printed 5 s := by
  rcases h with clock | rfl | rfl
  · exact clock.printed
  · decide
  · decide

theorem Program.Scheduled.copied {program : Program} (h : program.Scheduled) :
    ∀ e ∈ program.station.copied, HHMM e.departure_time ∧ Timed e.arrival_time ∧ Printed 60 e.route_name := by
  cases program with
  | c st => exact fun e member => ⟨(h e member).1, .inl (h e member).2.1, (h e member).2.2⟩
  | py st =>
      have idle : HHMM halt.departure_time ∧ Timed halt.arrival_time ∧ Printed 60 halt.route_name :=
        ⟨⟨0, 0, by decide, by decide, rfl⟩, .inr (.inr rfl), by decide⟩
      intro e member
      rcases List.mem_cons.mp member with rfl | member
      · exact idle
      change e ∈ st.twin.entries at member
      rw [st.twin_entries] at member
      rcases List.mem_cons.mp member with rfl | row
      · exact idle
      · obtain ⟨entry, inside, rfl⟩ := List.mem_map.mp row
        obtain ⟨_, departs, arrives, route⟩ := h entry inside
        exact ⟨departs, .inl arrives, route⟩

/-! ### What is on the wire -/

/-- A payload of printed texts. -/
structure PAYLOAD.Printed (p : PAYLOAD) : Prop where
  stations : ∀ s ∈ p.stations, TransitNet.Printed 60 s
  address : ∀ s ∈ p.address, TransitNet.Printed 54 s
  routes : ∀ s ∈ p.routes, TransitNet.Printed 60 s
  time : ∀ s ∈ p.time, TransitNet.Printed 5 s
  destination : TransitNet.Printed 60 p.destination
  source : TransitNet.Printed 60 p.source
  start_time : TransitNet.Printed 5 p.start_time

theorem PAYLOAD.length_wired (p : PAYLOAD) (n : ℕ) : (p.wired n).length = n + p.text.length := by
  simp only [PAYLOAD.wired, PAYLOAD.text, PAYLOAD.header, List.length_append, List.length_cons,
    List.length_replicate]
  omega

theorem PAYLOAD.Printed.field {p : PAYLOAD} (h : p.Printed) {s : Text} (member : s ∈ p.fields) :
    ∃ limit, TransitNet.Printed limit s := by
  simp only [PAYLOAD.fields, List.mem_append, List.mem_cons, List.not_mem_nil, or_false] at member
  rcases member with (((name | address) | route) | time) | rfl | rfl | rfl
  · exact ⟨_, h.stations s name⟩
  · exact ⟨_, h.address s address⟩
  · exact ⟨_, h.routes s route⟩
  · exact ⟨_, h.time s time⟩
  · exact ⟨_, h.destination⟩
  · exact ⟨_, h.source⟩
  · exact ⟨_, h.start_time⟩

theorem PAYLOAD.Printed.ascii {p : PAYLOAD} (h : p.Printed) (n : ℕ) : ∀ c ∈ p.wired n, c.toNat < 128 := by
  have field : ∀ s ∈ p.fields, ∀ c ∈ s, c.toNat < 128 := fun s member => (h.field member).choose_spec.ascii
  have space : (' ' : Char).toNat < 128 := by decide
  have semicolon : (';' : Char).toNat < 128 := by decide
  have body : ∀ c ∈ p.body, c.toNat < 128 := by
    intro c member
    rw [body_eq] at member
    rcases mem_spaced member with rfl | ⟨w, among, letter⟩
    · exact space
    · exact field w among c letter
  intro c member
  simp only [PAYLOAD.wired, PAYLOAD.header, List.mem_append, List.mem_cons, List.not_mem_nil, or_false] at member
  rcases member with digit | rfl | digit | rfl | digit | (pad | letter) | rfl
  · exact printInt_ascii _ c digit
  · exact space
  · exact printInt_ascii _ c digit
  · exact space
  · exact printInt_ascii _ c digit
  · exact List.eq_of_mem_replicate pad ▸ space
  · exact body c letter
  · exact semicolon

theorem PAYLOAD.Printed.loadable {p : PAYLOAD} (h : p.Printed) (sized : p.Sized)
    (counters : 0 ≤ p.found ∧ p.found ≤ 3 ∧ 0 ≤ p.current ∧ p.current ≤ p.hops) {n : ℕ}
    (short : (p.wired n).length < MAXDATASIZE) : p.Loadable := by
  have size := p.length_le_text
  have longer := p.length_wired n
  have nonneg := sized.hops_nonneg
  have count := sized.stations
  simp only [MAXDATASIZE] at short
  exact
    { sized
      found := by simp only [INT_MAX]; omega
      hops := by simp only [INT_MAX]; omega
      current := by simp only [INT_MAX]; omega
      stations := fun s member => (h.stations s member).token breaks_space
      address := fun s member => (h.address s member).token breaks_space
      routes := fun s member => (h.routes s member).token breaks_space
      time := fun s member => (h.time s member).token breaks_space
      destination := h.destination.token breaks_space
      source := h.source.token breaks_space
      start_time := h.start_time.token (by decide) }

theorem PAYLOAD.Printed.legible {p : PAYLOAD} (h : p.Printed) (sized : p.Sized) (found : 0 ≤ p.found)
    (current : 0 ≤ p.current) : p.Legible where
  sized := sized
  found := found
  current := current
  fields s member := by
    obtain ⟨_, printed⟩ := h.field member
    exact printed.word.mono breaks_parts

/-- What the numbered form of a datagram looks like on the wire. -/
def Datagram.numbered (d : Datagram) : PyDatagram := ⟨d.ip, intOf d.port, d.text⟩

end TransitNet
