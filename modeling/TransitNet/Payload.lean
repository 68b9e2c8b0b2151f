import TransitNet.Strings

/-! The payload and its two codecs: `craft_payload` and `load_payload` of the C
station, `serialize` and `deserialize` of the Python station. -/
namespace TransitNet
open Words

def MAX_NAME_LENGTH : ℕ := 61
def MAX_TIMESTRING : ℕ := 6
def MAX_PORT : ℕ := 8
def INET6_ADDRSTRLEN : ℕ := 46
def MAXDATASIZE : ℕ := 1024

/-- `struct payload`, and Python's `Payload`. A list holds the slots written so
far; `slots` below says how many a C station has allocated. -/
structure PAYLOAD where
  found : ℤ
  hops : ℤ
  current : ℤ
  stations : List Text
  address : List Text
  routes : List Text
  time : List Text
  destination : Text
  source : Text
  start_time : Text
  deriving DecidableEq, Repr

/-- Four lists of length `hops`. -/
structure PAYLOAD.Sized (p : PAYLOAD) : Prop where
  stations : (p.stations.length : ℤ) = p.hops
  address : (p.address.length : ℤ) = p.hops
  routes : (p.routes.length : ℤ) = p.hops
  time : (p.time.length : ℤ) = p.hops

/-- The question that a payload asks. -/
def PAYLOAD.key (p : PAYLOAD) : Text × Text := (p.destination, p.start_time)

/-- The slots that `load_payload` allocates in each of the four arrays. -/
def PAYLOAD.slots (p : PAYLOAD) : ℤ := if p.found = 0 then p.hops + 1 else p.hops

/-! ### The C codec -/

/-- The loop `for (i = 0; i < hops; i++)` over one array. -/
def readSlots (hops : ℤ) (slots : List Text) : Except Fault (List Text) :=
  if hops ≤ slots.length then .ok (slots.take hops.toNat) else .error .index

/-- The text that is written. How much is allocated for it is `craft_size`, and whether it stays inside is
a question of its own that no other result asks. -/
def craft_payload (p : PAYLOAD) : Except Fault Text := do
  let stations ← readSlots p.hops p.stations
  let address ← readSlots p.hops p.address
  let routes ← readSlots p.hops p.routes
  let time ← readSlots p.hops p.time
  return printInt p.found ++ ' ' :: printInt p.hops ++ ' ' :: printInt p.current ++
    spaced ' ' stations ++ spaced ' ' address ++ spaced ' ' routes ++ spaced ' ' time ++
    ' ' :: p.destination ++ ' ' :: p.source ++ ' ' :: p.start_time ++ [';']

/-- One `%d` into an `int` variable. -/
def scanCounter (s : Text) : Except Fault (ℤ × Text) :=
  match scanInt s with
  | none => .error .unset
  | some (i, rest) => if -(INT_MAX + 1) ≤ i ∧ i ≤ INT_MAX then .ok (i, rest) else .error .overflow

/-- One loop of `strtok` and `strcpy` into buffers of `size` bytes. -/
def copyTokens (size : ℕ) : ℕ → Text → Except Fault (List Text × Text)
  | 0, rest => .ok ([], rest)
  | n + 1, rest => do
      let (token, rest) := strtok ' ' rest
      let copied ← strcpy size token
      let (more, rest) ← copyTokens size n rest
      return (copied :: more, rest)

/-- The last `%d` of three. Where no number follows, the variable keeps its value. -/
def scanLast (current : ℤ) (s : Text) : Except Fault ℤ :=
  if (scanInt s).isNone then .ok current else (scanCounter s).map Prod.fst

/-- `current` is what the variable of that name holds before. Only the other two counters are used here. -/
def load_payload (payload_string : Text) (current : ℤ := 0) : Except Fault PAYLOAD := do
  let payload_copy := strdup payload_string
  let (found, rest) ← scanCounter payload_copy
  let (hops, rest) ← scanCounter rest
  let current ← scanLast current rest
  let (_, rest) := strtok ' ' payload_copy
  let (_, rest) := strtok ' ' rest
  let (_, rest) := strtok ' ' rest
  let (stations, rest) ← copyTokens MAX_NAME_LENGTH hops.toNat rest
  let (address, rest) ← copyTokens (MAX_PORT + INET6_ADDRSTRLEN + 1) hops.toNat rest
  let (routes, rest) ← copyTokens MAX_NAME_LENGTH hops.toNat rest
  let (time, rest) ← copyTokens MAX_TIMESTRING hops.toNat rest
  let (token, rest) := strtok ' ' rest
  let destination ← strcpy MAX_NAME_LENGTH token
  let (token, rest) := strtok ' ' rest
  let source ← strcpy MAX_NAME_LENGTH token
  -- the last token ends at the semicolon, spaces before it are not skipped
  let (token, _) := strtok ';' rest
  let start_time ← strcpy MAX_TIMESTRING token
  return { found, hops, current, stations, address, routes, time, destination, source, start_time }

/-- All three counters are set. -/
def counted (payload_string : Text) : Bool :=
  (scanInt (strdup payload_string)).any fun found => (scanInt found.2).any fun hops => (scanInt hops.2).isSome

/-! ### The Python codec -/

/-- Exceptions that the Python station can raise. -/
inductive PyError
  | indexError
  | valueError
  | attributeError
  deriving DecidableEq, Repr

/-- `" ".join(words)`. -/
def join (words : List Text) : Text := [' '].intercalate words

def serialize (p : PAYLOAD) : Text :=
  printInt p.found ++ ' ' :: printInt p.hops ++ ' ' :: printInt p.current ++ [' '] ++
    join p.stations ++ [' '] ++ join p.address ++ [' '] ++ join p.routes ++ [' '] ++
    join p.time ++ [' '] ++ p.destination ++ ' ' :: p.source ++ ' ' :: p.start_time ++ [';']

/-- The zeros of the runs of ten that make up Unicode's decimal digits. -/
def decimalZeros : List ℕ :=
  [48, 1632, 1776, 1984, 2406, 2534, 2662, 2790, 2918, 3046, 3174, 3302, 3430, 3558, 3664, 3792,
   3872, 4160, 4240, 6112, 6160, 6470, 6608, 6784, 6800, 6992, 7088, 7232, 7248, 42528, 43216,
   43264, 43472, 43504, 43600, 44016, 65296, 66720, 68912, 69734, 69872, 69942, 70096, 70384,
   70736, 70864, 71248, 71360, 71472, 71904, 72016, 72784, 73040, 73120, 92768, 92864, 93008,
   120782, 120792, 120802, 120812, 120822, 123200, 123632, 125264, 130032]

/-- `\d`, and what `int` takes for a digit. -/
def decimal? (c : Char) : Option ℕ :=
  (decimalZeros.find? fun z => z ≤ c.toNat ∧ c.toNat < z + 10).map (c.toNat - ·)

def isdecimal (c : Char) : Bool := (decimal? c).isSome

/-- `int` of a match of `\d+`. -/
def intOf (digits : Text) : ℤ := digits.foldl (fun n c => 10 * n + (decimal? c).getD 0) 0

/-- `(\d+) ` at the front of a text. -/
def matchCounter (s : Text) : Option (ℤ × Text) :=
  let digits := s.takeWhile isdecimal
  match s.dropWhile isdecimal with
  | ' ' :: rest => if digits.isEmpty then none else some (intOf digits, rest)
  | _ => none

/-- `(.+?);` at the front of a text: at least one character, up to the first
semicolon after it, no newline. -/
def matchBody : Text → Option Text
  | [] => none
  | c :: s =>
      let taken := c :: s.takeWhile (· ≠ ';')
      if '\n' ∈ taken ∨ s.dropWhile (· ≠ ';') = [] then none else some taken

/-- `xs[i]`, with Python's negative indices. -/
def pyIndex {α : Type*} (xs : List α) (i : ℤ) : Except PyError α :=
  let j := if i < 0 then i + xs.length else i
  if j < 0 then .error .indexError else
    match xs[j.toNat]? with
    | some x => .ok x
    | none => .error .indexError

/-- `Payload()`. -/
def defaultPayload : PAYLOAD where
  found := 0
  hops := 0
  current := 0
  stations := []
  address := []
  routes := []
  time := []
  destination := []
  source := []
  start_time := "00:00".toList

/-- `Payload().deserialize(payload_str)`; the default payload if the pattern does not match. -/
def deserialize (payload_str : Text) : Except PyError PAYLOAD :=
  match matchCounter payload_str with
  | none => .ok defaultPayload
  | some (found, rest) =>
    match matchCounter rest with
    | none => .ok defaultPayload
    | some (hops, rest) =>
      match matchCounter rest with
      | none => .ok defaultPayload
      | some (current, rest) =>
        match matchBody rest with
        | none => .ok defaultPayload
        | some body => do
          let data := split whitespace body
          let n := hops.toNat
          let destination ← pyIndex data (-3)
          let source ← pyIndex data (-2)
          let start_time ← pyIndex data (-1)
          return { found, hops, current
                   stations := data.take n
                   address := (data.take (2 * n)).drop n
                   routes := (data.take (3 * n)).drop (2 * n)
                   time := (data.take (4 * n)).drop (3 * n)
                   destination, source, start_time }

end TransitNet
