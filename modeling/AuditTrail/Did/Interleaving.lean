import AuditTrail.Did.Resolver

/-!
# Calls of one resolver at the same time

Several calls share the cache of a resolver and take their steps in any order. Sending a request and
getting the reply are steps of their own, with whatever the others do in between. A schedule says whose
turn it is, and which reply there is should that call wait for one; a turn of a call that cannot go on
passes. So every interleaving of every replies is the run of some schedule.

The trace of a run is what its calls have sent and received, in order.
-/

namespace AuditTrail.Did

open Http (Request Reply)

/-- A call among others. -/
structure Task where
  call : Call
  /-- Whether its request was sent and the reply is still to come. -/
  pending : Bool

/-- What happens between a call and the network. -/
inductive Event
  | sent (did : String) (request : Request)
  | received (did : String) (request : Request) (reply : Reply)

namespace Event

/-- The DID that the call resolves. -/
def did : Event → String
  | .sent did _ => did
  | .received did _ _ => did

def request : Event → Request
  | .sent _ request => request
  | .received _ request _ => request

def isSent : Event → Bool
  | .sent _ _ => true
  | .received _ _ _ => false

/-- The document that was received, if one was. -/
def document? : Event → Option DidDocument
  | .sent _ _ => none
  | .received did request reply => (documentOf did request.url reply).toOption

end Event

/-- The documents received, in order. -/
def documents (trace : List Event) : List DidDocument := trace.filterMap Event.document?

/-- A resolver with the calls that share it. -/
structure System where
  cache : Cache
  tasks : List Task
  trace : List Event

/-- Whose turn it is, and the reply should that call wait for one. -/
abbrev Turn := Nat × Reply

namespace System

/-- A new resolver with calls that have not done anything yet. -/
def start (dids : List String) : System := ⟨[], dids.map fun did => ⟨⟨did, .started⟩, false⟩, []⟩

/-- Takes one turn. -/
def step (settings : Settings) (s : System) (turn : Turn) : System :=
  match s.tasks[turn.1]? with
  | none => s
  | some task =>
    match task.call.advance settings s.cache with
    | none => s
    | some (.changes cache call) => ⟨cache, s.tasks.set turn.1 ⟨call, false⟩, s.trace⟩
    | some (.asks request next) =>
      if task.pending then
        ⟨s.cache, s.tasks.set turn.1 ⟨next turn.2, false⟩,
          s.trace ++ [.received task.call.did request turn.2]⟩
      else ⟨s.cache, s.tasks.set turn.1 ⟨task.call, true⟩, s.trace ++ [.sent task.call.did request]⟩

/-- Takes the turns of a schedule. -/
def run (settings : Settings) (s : System) (turns : List Turn) : System :=
  turns.foldl (step settings) s

/-- The calls for a DID. -/
def tasksOf (s : System) (did : String) : List Task := s.tasks.filter fun t => t.call.did == did

/-- What the calls for a DID have sent and received. -/
def traceOf (s : System) (did : String) : List Event := s.trace.filter fun e => e.did == did

end System

/-! ## How calls stand -/

namespace Task

/-- Whether the call holds the slot of its DID. -/
def holds (t : Task) : Bool :=
  match t.call.progress with
  | .holding | .fetching _ | .storing _ | .releasing _ => true
  | _ => false

/-- Whether the call fetches the document. -/
def fetches (t : Task) : Bool :=
  match t.call.progress with
  | .fetching _ => true
  | _ => false

def isFinished (t : Task) : Bool :=
  match t.call.progress with
  | .finished _ => true
  | _ => false

/-- Whether the call returned an error. -/
def hasFailed (t : Task) : Bool :=
  match t.call.progress with
  | .finished (.error _) => true
  | _ => false

/-- Whether the call returned a document. -/
def hasSucceeded (t : Task) : Bool :=
  match t.call.progress with
  | .finished (.ok _) => true
  | _ => false

end Task

end AuditTrail.Did
