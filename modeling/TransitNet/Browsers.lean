import TransitNet.Python
import TransitNet.Requests
import Mathlib.Data.List.Induction

/-! The client list and the query store of a Python station, and what `run_server` does
with them. -/
namespace TransitNet

structure PyQuery where
  destination : Text
  start_time : Text
  answers : Option Text := none
  deriving DecidableEq, Repr

structure ClientNode where
  fd : ℕ
  query : PyQuery
  deriving DecidableEq, Repr

def PyQuery.key (q : PyQuery) : Text × Text := (q.destination, q.start_time)

/-! ### The client list, from its head -/

namespace ClientList

def add_client (fd : ℕ) (query : PyQuery) (clients : List ClientNode) : List ClientNode :=
  ⟨fd, query⟩ :: clients

def find_client (query : PyQuery) (clients : List ClientNode) : Option ClientNode :=
  clients.find? fun current => current.query.key = query.key

theorem find_client_some {query : PyQuery} {clients : List ClientNode} {c : ClientNode}
    (found : find_client query clients = some c) : c ∈ clients ∧ c.query.key = query.key := by
  unfold find_client at found
  have asks := List.find?_some found
  rw [decide_eq_true_eq] at asks
  exact ⟨List.mem_of_find?_eq_some found, asks⟩

/-- The loop of `remove_client`. `linked` says whether `prev` is a node of the list: at the
head there is none, and behind a node that has been cut out it is that node. -/
def sweep (fd : ℕ) : Bool → List ClientNode → List ClientNode
  | _, [] => []
  | linked, current :: next =>
      if current.fd = fd ∧ linked then sweep fd false next else current :: sweep fd true next

def remove_client (fd : ℕ) (clients : List ClientNode) : List ClientNode := sweep fd false clients

theorem sweep_sublist (fd : ℕ) (linked : Bool) (clients : List ClientNode) :
    (sweep fd linked clients).Sublist clients := by
  induction clients generalizing linked with
  | nil => exact List.Sublist.refl _
  | cons current next ih =>
      rw [sweep]
      split
      · exact (ih false).trans (List.sublist_cons_self current next)
      · exact (ih true).cons_cons current

theorem remove_client_mem {fd : ℕ} {clients : List ClientNode} {c : ClientNode}
    (member : c ∈ remove_client fd clients) : c ∈ clients :=
  (sweep_sublist fd false clients).mem member

end ClientList

/-! ### The query store -/

structure QueryManager where
  queries : List PyQuery
  query_index : ℕ
  deriving DecidableEq, Repr

namespace QueryManager

def max_queries : ℕ := 100

def new : QueryManager := ⟨[], 0⟩

/-- A full store is only looked at. -/
def add_query (store : QueryManager) (new_query : PyQuery) : QueryManager where
  queries := if store.queries.length < max_queries then store.queries ++ [new_query] else store.queries
  query_index := store.query_index + 1

def search_query (store : QueryManager) (destination start_time : Text) : Option PyQuery :=
  store.queries.find? fun q => q.destination = destination && q.start_time = start_time

/-- `target_query.answers = answers`, where `target_query` is what `search_query` has returned. -/
def answer (store : QueryManager) (destination start_time answers : Text) : QueryManager :=
  { store with
    queries := store.queries.modify
      (store.queries.findIdx fun q => q.destination = destination && q.start_time = start_time)
      fun q => { q with answers } }

theorem search_query_some {store : QueryManager} {destination start_time : Text} {q : PyQuery}
    (found : store.search_query destination start_time = some q) :
    q ∈ store.queries ∧ q.key = (destination, start_time) := by
  have asks := List.find?_some found
  rw [Bool.and_eq_true, decide_eq_true_eq, decide_eq_true_eq] at asks
  exact ⟨List.mem_of_find?_eq_some found, Prod.ext asks.1 asks.2⟩

theorem mem_add_query {store : QueryManager} {q new_query : PyQuery}
    (member : q ∈ (store.add_query new_query).queries) : q ∈ store.queries ∨ q = new_query := by
  rw [add_query] at member
  split at member
  · exact (List.mem_append.mp member).imp_right List.mem_singleton.mp
  · exact .inl member

/-- An answer reaches the query it is for, and no other. -/
theorem mem_answer {store : QueryManager} {destination start_time answers : Text} {q : PyQuery}
    (member : q ∈ (store.answer destination start_time answers).queries) :
    q ∈ store.queries ∨ (q.key = (destination, start_time) ∧ q.answers = some answers) := by
  let asks : PyQuery → Bool := fun q => q.destination = destination && q.start_time = start_time
  obtain ⟨i, at_i⟩ := List.mem_iff_getElem?.mp member
  have modified : ((store.queries.modify (store.queries.findIdx asks)) fun q => { q with answers })[i]? =
    some q := at_i
  rw [List.getElem?_modify] at modified
  split at modified
  · rename_i here
    obtain ⟨q', stored, rfl⟩ := Option.map_eq_some_iff.mp modified
    subst here
    obtain ⟨bound, same⟩ := List.getElem?_eq_some_iff.mp stored
    have hit : asks store.queries[store.queries.findIdx asks] = true := List.findIdx_getElem
    rw [same, Bool.and_eq_true, decide_eq_true_eq, decide_eq_true_eq] at hit
    exact .inr ⟨Prod.ext hit.1 hit.2, rfl⟩
  · obtain ⟨_, stored, rfl⟩ := Option.map_eq_some_iff.mp modified
    exact .inl (List.mem_of_getElem? stored)

end QueryManager

/-! ### The main loop -/

/-- `http_response` before the message. -/
def response_head : Text :=
  "HTTP/1.1 200 OK\nContent-Type: text/html\n\n<html>\n<body>\n    <h1>From Py:</h1>\n    <p>".toList

/-- `http_response` behind the message. -/
def response_tail : Text := "\n</p>\n</body>\n</html>\n".toList

def http_response (message : Text) : Text := response_head ++ message ++ response_tail

theorem http_response_inj {a b : Text} : http_response a = http_response b ↔ a = b := by
  unfold http_response
  refine ⟨fun same => List.append_cancel_left (List.append_cancel_right same), ?_⟩
  rintro rfl
  rfl

/-- The variables of `run_server` beside what the kernel knows. Sockets are numbered as they are
accepted. What `parse_query` made of each request, the question that `message` is the route for, if
it is one, and what has been sent are history that the code does not read. -/
structure PyServer where
  queries : QueryManager
  clients : List ClientNode
  message : Option Text
  /-- The walk of the clients at a timeout is under way. -/
  walking : Bool
  closed : List ℕ
  accepted : List (Option (Text × Text))
  answering : Option (Text × Text)
  wire : List (ℕ × Text)
  deriving DecidableEq, Repr

/-- What `select` reports: a connection, with what its request was decoded to if it was received,
a timeout or a datagram. -/
inductive PyEvent
  | request (current_time : Text) (received : Option Text)
  | timeout
  | datagram (data : Text)
  deriving DecidableEq, Repr

/-- The text that a pass through the branch leaves in `message`. A payload that no neighbour is
sent is serialized all the same. -/
def PyStation.left (st : PyStation) (p : PAYLOAD) (outcome : PyOutcome) : Text :=
  match outcome.sent with
  | datagram :: _ => datagram.message
  | [] => serialize (update_on_arrival st.STATION_NAME st.recorded p)

/-- The init payload that a station sends to itself. -/
def PyStation.ask (st : PyStation) (destination start_time : Text) : PyDatagram :=
  ⟨st.local_ip, st.udp_port, serialize (init_payload destination st.STATION_NAME start_time)⟩

namespace PyServer

def idle : PyServer := ⟨.new, [], none, false, [], [], none, []⟩

def accept (s : PyServer) (asked : Option (Text × Text)) : PyServer :=
  { s with accepted := s.accepted ++ [asked] }

/-- The last socket that was accepted. -/
def client_socket (s : PyServer) : ℕ := s.accepted.length - 1

/-- A closed socket raises, and what it raises is caught. -/
def sendall (s : PyServer) (fd : ℕ) (body : Text) : PyServer :=
  if fd ∈ s.closed then s else { s with wire := s.wire ++ [(fd, body)] }

def close (s : PyServer) (fd : ℕ) : PyServer := { s with closed := fd :: s.closed }

/-- `message = ...`. -/
def write (s : PyServer) (message : Text) (answering : Option (Text × Text)) : PyServer :=
  { s with message := some message, answering }

/-- The init payload for a question, written and sent. -/
def ask (s : PyServer) (st : PyStation) (destination start_time : Text) : PyServer × List PyDatagram :=
  (s.write (st.ask destination start_time).message none, [st.ask destination start_time])

/-- A meaningful request on the socket that was accepted last. -/
def question (st : PyStation) (s : PyServer) (dest tm : Text) : PyServer × List PyDatagram :=
  let q : PyQuery := { destination := dest, start_time := tm }
  let s := { s with clients := ClientList.remove_client s.client_socket s.clients }
  match s.queries.search_query dest tm with
  | none =>
      ask { s with
        clients := ClientList.add_client s.client_socket q s.clients
        queries := s.queries.add_query q } st dest tm
  | some same_query =>
      match same_query.answers with
      | none => ask { s with clients := ClientList.add_client s.client_socket q s.clients } st dest tm
      | some _ =>
          -- not the answer of `same_query`, but whatever was serialized last
          match s.message with
          | none => (s.close s.client_socket, [])
          | some message => ((s.sendall s.client_socket (http_response message)).close s.client_socket, [])

/-- A connection. It is closed where nothing could be received, and left alone where its request
is not meaningful. -/
def request (st : PyStation) (s : PyServer) (current_time : Text) (received : Option Text) :
    PyServer × List PyDatagram :=
  match received with
  | none => ((s.accept none).close s.accepted.length, [])
  | some request =>
      match parse_query current_time request with
      | none => (s.accept none, [])
      | some (dest, tm) => (s.accept (some (dest, tm))).question st dest tm

/-- How the walk sends: the socket that it checks is not the one that it sends to. -/
def tell (s : PyServer) (fd : ℕ) (body : Text) : PyServer :=
  if s.client_socket ∈ s.closed then s else s.sendall fd body

/-- One pass of the walk at a timeout. It never leaves the head, whose successor is not read. -/
def timeout (st : PyStation) (s : PyServer) : PyServer × List PyDatagram :=
  match s.clients with
  | [] => (s, [])
  | current :: _ =>
      let s := { s with walking := true }
      match s.queries.search_query current.query.destination current.query.start_time with
      | none =>
          ask { s with queries := s.queries.add_query current.query } st
            current.query.destination current.query.start_time
      | some q =>
          match q.answers with
          | none => s.ask st q.destination q.start_time
          | some answers =>
              let s := s.tell current.fd (http_response answers)
              ({ s with clients := ClientList.remove_client current.fd s.clients }.close current.fd, [])

/-- What `target_query.answers` becomes when `p` has come home. -/
def better (answers : Option Text) (p : PAYLOAD) : Except PyError Text :=
  match answers with
  | none => .ok (serialize p)
  | some old => do
      let temp ← deserialize old
      let before ← time_to_minutes (← pyIndex temp.time (temp.hops - 1))
      let now ← time_to_minutes (← pyIndex p.time (p.hops - 1))
      return if before > now then serialize p else old

/-- `found == 4`. A query that is not in the store is put there, and then the answer of nothing is read. -/
def finish (s : PyServer) (p : PAYLOAD) : Except PyError PyServer :=
  let s := s.write (serialize p) (some p.key)
  match s.queries.search_query p.destination p.start_time with
  | none => .error .attributeError
  | some target_query => do
      let answers ← better target_query.answers p
      let s := { s with queries := s.queries.answer p.destination p.start_time answers }
      match ClientList.find_client { destination := p.destination, start_time := p.start_time } s.clients with
      | none => return s
      | some c =>
          let s := s.sendall c.fd (http_response answers)
          return { s with clients := ClientList.remove_client c.fd s.clients }.close c.fd

def datagram (st : PyStation) (s : PyServer) (data : Text) : Except PyError (PyServer × List PyDatagram) := do
  let p ← deserialize data
  let outcome ← st.handle p
  match outcome.finished with
  | some p =>
      let s ← s.finish p
      return (s, outcome.sent)
  | none => return (s.write (st.left p outcome) none, outcome.sent)

/-- One turn of the loop of `run_server`. -/
def step (st : PyStation) (s : PyServer) : PyEvent → Except PyError (PyServer × List PyDatagram)
  | .request current_time received => .ok (s.request st current_time received)
  | .timeout => .ok (s.timeout st)
  | .datagram data => s.datagram st data

/-- A walk that has begun goes on for ever. -/
def Allows (s : PyServer) : PyEvent → Prop
  | .timeout => True
  | .request _ _ | .datagram _ => s.walking = false

instance (s : PyServer) : (e : PyEvent) → Decidable (s.Allows e)
  | .timeout => .isTrue trivial
  | .request _ _ => inferInstanceAs (Decidable (s.walking = false))
  | .datagram _ => inferInstanceAs (Decidable (s.walking = false))

end PyServer

/-- What a Python station has been through, each event beside the state that it met. -/
inductive PyServes (st : PyStation) : List (PyServer × PyEvent) → PyServer → Prop
  | idle : PyServes st [] .idle
  | turn {es : List (PyServer × PyEvent)} {s s' : PyServer} {e : PyEvent} {sent : List PyDatagram} :
      PyServes st es s → s.Allows e → s.step st e = .ok (s', sent) → PyServes st (es ++ [(s, e)]) s'

/-- One more event; what may not happen, or raises, is left out. -/
def PyServer.follow (st : PyStation) (turns : List (PyServer × PyEvent) × PyServer) (e : PyEvent) :
    List (PyServer × PyEvent) × PyServer :=
  if turns.2.Allows e then
    match turns.2.step st e with
    | .ok (s', _) => (turns.1 ++ [(turns.2, e)], s')
    | .error _ => turns
  else turns

/-- The turns that a list of events leads to. -/
def PyServer.play (st : PyStation) (events : List PyEvent) : List (PyServer × PyEvent) × PyServer :=
  events.foldl (PyServer.follow st) ([], .idle)

theorem PyServer.play_serves (st : PyStation) (events : List PyEvent) :
    PyServes st (PyServer.play st events).1 (PyServer.play st events).2 := by
  unfold PyServer.play
  induction events using List.reverseRecOn with
  | nil => exact .idle
  | append_singleton events e ih =>
      rw [List.foldl_append, List.foldl_cons, List.foldl_nil, PyServer.follow]
      split
      · rename_i allowed
        split
        · rename_i ran
          exact ih.turn allowed ran
        · exact ih
      · exact ih

end TransitNet
