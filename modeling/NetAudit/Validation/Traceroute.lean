import NetAudit.Validation.Ping

/-!
# Traces of a route

The values of a trace are hops in one flat map: `hop_<index>_addr_<field>` holds an address of a
hop, and `hop_<index>_rtt` the time to reach it. An index is a number of 32 bits in ASCII digits,
with or without zeros in front; keys of any other form are no part of a route.

`Route.ofValues` takes the map apart, and `Route.score` scores the hops in the order of their
indices.
-/

namespace NetAudit

/-- What the key of a value says about a hop. -/
inductive HopKey where
  | address (index : Nat) (field : String)
  | rtt (index : Nat)
deriving DecidableEq, Repr

/-- The hop and the part of it that a key names. -/
def HopKey.ofChars? (key : List Char) : Option HopKey := do
  let rest ← "hop_".toList.isPrefixOf? key
  let index ← Number.digits? Number.indexBound (rest.takeWhile Char.isDigit)
  let part := rest.dropWhile Char.isDigit
  match "_addr_".toList.isPrefixOf? part with
  | some field =>
    if field.isEmpty || field.contains '\n' then none
    else some (.address index (String.ofList field))
  | none => if part = "_rtt".toList then some (.rtt index) else none

/-- The hops of a trace: their addresses by field, and the times to reach them. -/
structure Route where
  hops : OrderedMap Nat (OrderedMap String String)
  rtts : OrderedMap Nat String
deriving DecidableEq

namespace Route

/-- The largest index of a hop. -/
def maxHop : Nat := 45

/-- A route without hops. -/
def empty : Route := ⟨.empty, .empty⟩

/-- Add what one value says. Of two addresses for one field of a hop the later counts, and of two
times for one hop the earlier. -/
def add (r : Route) (key value : String) : Route :=
  match HopKey.ofChars? key.toList with
  | some (.address index field) =>
    { r with hops := r.hops.update index fun hop => (hop.getD .empty).insert field value }
  | some (.rtt index) => { r with rtts := r.rtts.update index fun rtt => rtt.getD value }
  | none => r

/-- The route that the values of a trace describe, taken by ascending key. -/
def ofValues (vs : Values) : Route := vs.toList.foldl (fun r e => r.add e.1 e.2) empty

/-- The number of hops with an address. -/
def hopCount (r : Route) : Nat := r.hops.size

/-- The addresses of a hop by field. -/
def hopAddresses (r : Route) (index : Nat) : Option (OrderedMap String String) :=
  r.hops.find? index

/-- The time to a hop is a number of at most three seconds. -/
def rttInRange (value : String) : Bool :=
  match parseNumber? value with
  | some rtt => between 0 3000 rtt
  | none => false

/-- The score of the time to a hop. -/
def scoreRtt (r : Route) (index : Nat) : Outcome :=
  match r.rtts.find? index with
  | some value => if rttInRange value then .clean else Outcome.clean.fail Tag.latencyNotValid
  | none => (Outcome.clean.remark (.hopWithoutRtt index)).fail (missingFieldTag "rtt")

/-- The score of a hop that stands at `position` among the hops. -/
def scoreHop (r : Route) (position index : Nat) (addresses : OrderedMap String String) :
    Outcome :=
  let misplaced := if index = position then [] else [Tag.missingHop]
  let beyond := if maxHop < index then [Tag.tooManyHops] else []
  let bad := (addresses.values.filter fun a => (parseAddress? a).isNone).map fun _ =>
    Tag.addressNotValid
  (misplaced ++ beyond ++ bad).foldl Outcome.fail .clean ++ r.scoreRtt index

/-- The scores of hops, the first of which stands at `position`. -/
def scoreHops (r : Route) (position : Nat) :
    List (Nat × OrderedMap String String) → Outcome
  | [] => .clean
  | (index, addresses) :: hops =>
    r.scoreHop position index addresses ++ r.scoreHops (position + 1) hops

/-- How a route is scored. -/
def score (r : Route) : Outcome := r.scoreHops 0 r.hops.toList

end Route

end NetAudit
