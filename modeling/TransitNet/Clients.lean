import TransitNet.Network
import Mathlib.Logic.Function.Basic

/-! The client list and the query store of a C station, and what its main loop does
with them. -/
namespace TransitNet

def MAX_QUERIES : ℕ := 100

structure QUERY where
  start_time : Text
  destination : Text
  answers : Text
  deriving DecidableEq, Repr

structure CLIENT_NODE where
  fd : ℕ
  query : QUERY
  deriving DecidableEq, Repr

def new_query : QUERY := ⟨[], [], []⟩

/-- Both comparisons of `find_client` and of `search_query`. -/
def QUERY.asks (q : QUERY) (destination time : Text) : Bool :=
  q.destination = destination && q.start_time = time

theorem QUERY.asks_iff {q : QUERY} {destination time : Text} :
    q.asks destination time = true ↔ q.destination = destination ∧ q.start_time = time := by
  rw [QUERY.asks, Bool.and_eq_true, decide_eq_true_eq, decide_eq_true_eq]

/-! ### The client list -/

def add_client (fd : ℕ) (query : QUERY) (head_client : List CLIENT_NODE) : List CLIENT_NODE :=
  ⟨fd, query⟩ :: head_client

def find_client (q : QUERY) (head_client : List CLIENT_NODE) : Option CLIENT_NODE :=
  head_client.find? fun current => current.query.asks q.destination q.start_time

def remove_client (fd : ℕ) (head_client : List CLIENT_NODE) : List CLIENT_NODE :=
  head_client.eraseP fun entry => entry.fd = fd

theorem remove_client_absent {fd : ℕ} {clients : List CLIENT_NODE}
    (absent : fd ∉ clients.map CLIENT_NODE.fd) : remove_client fd clients = clients := by
  apply List.eraseP_of_forall_not
  intro c member same
  rw [decide_eq_true_eq] at same
  exact absent (List.mem_map.mpr ⟨c, member, same⟩)

/-- Among different descriptors removing by descriptor takes out the very node found. -/
theorem find_client_split {q : QUERY} {clients : List CLIENT_NODE} {c : CLIENT_NODE}
    (once : (clients.map CLIENT_NODE.fd).Nodup) (found : find_client q clients = some c) :
    c.query.asks q.destination q.start_time = true ∧ ∃ front back, clients = front ++ c :: back ∧
      remove_client c.fd clients = front ++ back ∧
      ∀ a ∈ front, a.query.asks q.destination q.start_time = false := by
  obtain ⟨asks, front, back, rfl, before⟩ := List.find?_eq_some_iff_append.mp found
  refine ⟨asks, front, back, rfl, ?_, fun a member => by simpa using before a member⟩
  rw [List.map_append, List.map_cons, List.nodup_append] at once
  have other : ∀ a ∈ front, ¬ decide (a.fd = c.fd) = true := by
    intro a member same
    rw [decide_eq_true_eq] at same
    exact once.2.2 a.fd (List.mem_map_of_mem member) c.fd List.mem_cons_self same
  have first := List.eraseP_cons_of_pos (p := fun entry : CLIENT_NODE => entry.fd = c.fd) (a := c)
    (l := back) (decide_eq_true rfl)
  rw [remove_client, List.eraseP_append_right _ other, first]

theorem length_remove_client {q : QUERY} {clients : List CLIENT_NODE} {c : CLIENT_NODE}
    (found : find_client q clients = some c) : (remove_client c.fd clients).length < clients.length := by
  have member := List.mem_of_find?_eq_some found
  have erased := List.length_eraseP_of_mem (p := fun entry : CLIENT_NODE => entry.fd = c.fd) member
    (decide_eq_true rfl)
  have some := List.length_pos_of_mem member
  rw [remove_client, erased]
  omega

/-! ### The query store -/

/-- A ring of queries. -/
structure Store where
  queries : List QUERY
  query_index : ℕ
  sized : queries.length = MAX_QUERIES

namespace Store

/-- Static storage starts out zeroed. -/
def zeroed : Store := ⟨List.replicate MAX_QUERIES new_query, 0, List.length_replicate⟩

def add_query (store : Store) (new_query : QUERY) : Store where
  queries := store.queries.set (store.query_index % MAX_QUERIES) new_query
  query_index := (store.query_index + 1) % MAX_QUERIES
  sized := by rw [List.length_set, store.sized]

/-- The first of the copies that `search_query` returns; what is written into it does
not reach the store. -/
def search_query (store : Store) (destination time : Text) : Option QUERY :=
  store.queries.find? fun q => q.asks destination time

theorem search_query_some {store : Store} {destination time : Text} {q : QUERY}
    (found : store.search_query destination time = some q) :
    q ∈ store.queries ∧ q.destination = destination ∧ q.start_time = time :=
  have asks : q.asks destination time = true :=
    List.find?_some (p := fun q : QUERY => q.asks destination time) found
  ⟨List.mem_of_find?_eq_some found, QUERY.asks_iff.mp asks⟩

end Store

/-! ### The main loop -/

/-- What a station sends to a browser: the page that asks it to wait, or the answer. -/
inductive Response
  | wait
  | answer (answers : Text)
  deriving DecidableEq, Repr

/-- The station's lists beside what the kernel knows: the connection behind each open
descriptor. Connections are numbered as they are accepted; what each has asked for and
what has been sent on it are history that the code does not read. -/
structure Server where
  head_client : List CLIENT_NODE
  store : Store
  descriptors : ℕ → Option ℕ
  accepted : List (Option (Text × Text))
  wire : List (ℕ × Response)

/-- What `select` reports: a connection, with a meaningful request or another, a timeout
or a datagram. -/
inductive Event
  | request (fd : ℕ) (destination time : Text)
  | ignored (fd : ℕ)
  | timeout
  | datagram (buffer : Text)

namespace Server

def idle : Server := ⟨[], .zeroed, fun _ => none, [], []⟩

def accept (s : Server) (fd : ℕ) (asked : Option (Text × Text)) : Server :=
  { s with
    descriptors := Function.update s.descriptors fd (some s.accepted.length)
    accepted := s.accepted ++ [asked] }

def send (s : Server) (fd : ℕ) (response : Response) : Server :=
  match s.descriptors fd with
  | some n => { s with wire := s.wire ++ [(n, response)] }
  | none => s

def close (s : Server) (fd : ℕ) : Server :=
  { s with descriptors := Function.update s.descriptors fd none }

/-- A meaningful request on a connection that is accepted as `fd`. -/
def request (s : Server) (fd : ℕ) (destination time : Text) : Except Fault Server := do
  let s := (s.accept fd (some (destination, time))).send fd .wait
  match s.store.search_query destination time with
  | none =>
      let start_time ← strcpy MAX_TIMESTRING (some time)
      let destination ← strcpy MAX_NAME_LENGTH (some destination)
      let new_q := { new_query with start_time, destination }
      return { s with
        store := s.store.add_query new_q
        head_client := add_client fd new_q (remove_client fd s.head_client) }
  | some q => return { s with head_client := add_client fd q (remove_client fd s.head_client) }

/-- The walk of the list at a timeout. A client whose descriptor is closed would be freed,
and then asked for its successor. -/
def resend (st : Station) (descriptors : ℕ → Option ℕ) : List CLIENT_NODE → Except Fault (List Datagram)
  | [] => .ok []
  | current :: next =>
      if descriptors current.fd = none then .error .freed
      else do
        let rest ← resend st descriptors next
        if current.query.answers = [] then
          return ⟨st.local_ip, st.UDP_port,
            initText current.query.destination st.station_name current.query.start_time⟩ :: rest
        else return rest

@[simp] theorem send_head_client (s : Server) (fd : ℕ) (r : Response) :
    (s.send fd r).head_client = s.head_client := by
  rw [send]
  split <;> rfl

/-- `while((fd_tosend = find_client(q)) != NULL)`. -/
def deliver (q : QUERY) (s : Server) : Server :=
  match _found : find_client q s.head_client with
  | none => s
  | some fd_tosend =>
      deliver q
        { (s.send fd_tosend.fd (.answer q.answers)).close fd_tosend.fd with
          head_client := remove_client fd_tosend.fd s.head_client }
termination_by s.head_client.length
decreasing_by exact length_remove_client _found

/-- `FINISH!`. -/
def finished (s : Server) (st : Station) (pload : PAYLOAD) : Except Fault Server :=
  match s.store.search_query pload.destination pload.start_time with
  | none => .error .null
  | some q => do
      let answers ← finish st q.answers pload
      let answers ← strcpy MAXDATASIZE (some answers)
      return s.deliver { q with answers }

/-- One turn of the loop of `main`. -/
def step (st : Station) (s : Server) : Event → Except Fault (Server × List Datagram)
  | .request fd destination time => do
      let s ← s.request fd destination time
      return (s, [])
  | .ignored fd => .ok (s.accept fd none, [])
  | .timeout => do
      let sent ← resend st s.descriptors s.head_client
      return (s, sent)
  | .datagram buffer => do
      let outcome ← udp_branch st buffer
      match outcome.finished with
      | none => return (s, outcome.sent)
      | some pload =>
          let s ← s.finished st pload
          return (s, outcome.sent)

/-- `accept` returns a descriptor that is not open. -/
def Allows (s : Server) : Event → Prop
  | .request fd _ _ | .ignored fd => s.descriptors fd = none
  | .timeout | .datagram _ => True

end Server

/-- What a station has been through. Between two turns its timetable may be reloaded. -/
inductive Serves : List (Station × Event) → Server → Prop
  | idle : Serves [] .idle
  | turn {es : List (Station × Event)} {s s' : Server} {st : Station} {e : Event} {sent : List Datagram} :
      Serves es s → s.Allows e → s.step st e = .ok (s', sent) → Serves (es ++ [(st, e)]) s'

end TransitNet
