import Veritra.Machine.Run

/-! # The sync owner of an account

`AccountSyncEngine` of `sync_service.dart`. Requests from every transport share one owner. A run of the owner
makes one pass after the other while new requests came in, and then completes all requests that wait.

The code is single-threaded, so an event is what happens between two suspension points. The first pass of a
run starts inside the call of `request`: until the pass suspends, `_active` is not set, and every call is
made by the pass itself.
-/

namespace Veritra.Sync

/-- The completer of a request, with the number of passes that had started before it. -/
structure Waiter where
  id : ℕ
  asked : ℕ
  deriving DecidableEq, Repr

/-- `AccountSyncEngine`, with `isOwner` as it is now. A run is known by its number, `working` counts the calls
of `work` that have not ended, and `completed` says which requests completed with or without an error. -/
structure Engine where
  running : Bool := false
  requested : Bool := false
  disposed : Bool := false
  active : Option ℕ := none
  waiters : List Waiter := []
  isOwner : Bool := true
  launching : Bool := false
  runs : ℕ := 0
  passes : ℕ := 0
  working : ℕ := 0
  requests : List Waiter := []
  completed : List (Waiter × Bool) := []
  deriving DecidableEq, Repr

inductive Event
  | request
  | markRequested
  /-- `_run` suspends for the first time, and `request` sets `_active`. -/
  | launched
  | passEnded (success : Bool)
  | setOwner (isOwner : Bool)
  | dispose
  | cancelAndDrain
  /-- A `cancelAndDrain` that awaits this run returns. -/
  | drained (active : Option ℕ)
  deriving DecidableEq, Repr

namespace Engine

def complete (e : Engine) (success : Bool) : Engine :=
  { e with waiters := [], completed := e.completed ++ e.waiters.map (·, success) }

/-- The start of the loop of `_run`. -/
def loop (e : Engine) : Engine :=
  let e := { e with requested := false }
  if e.disposed || !e.isOwner then { e with running := false }.complete true
  else { e with working := e.working + 1, passes := e.passes + 1 }

def request (e : Engine) : Engine :=
  let waiter := ⟨e.requests.length, e.passes⟩
  let e := { e with requests := e.requests ++ [waiter] }
  if e.disposed || !e.isOwner then { e with completed := e.completed ++ [(waiter, true)] }
  else
    let e := { e with waiters := e.waiters ++ [waiter] }
    if e.running then { e with requested := true }
    else { e with running := true, launching := true, runs := e.runs + 1 }.loop

/-- `work` returned or threw, and `_run` goes on. -/
def passEnded (e : Engine) (success : Bool) : Engine :=
  let e := { e with
    working := e.working - 1, launching := false, active := if e.launching then e.runs else e.active }
  if success && e.requested && !e.disposed && e.isOwner then e.loop
  else { e with running := false }.complete success

def dispose (e : Engine) : Engine :=
  let e := { e with disposed := true, requested := false }
  if e.running then e else e.complete true

/-- An event is refused in the states in which it cannot happen. A pass that has not suspended ends only by
an exception. -/
def step (e : Engine) : Event → Except Unit (Unit × Engine)
  | .request => .ok ((), e.request)
  | .markRequested => .ok ((), if !e.disposed && e.isOwner then { e with requested := true } else e)
  | .launched =>
    if e.launching then .ok ((), { e with launching := false, active := e.runs }) else .error ()
  | .passEnded success =>
    if 0 < e.working ∧ ¬ (e.launching ∧ success) then .ok ((), e.passEnded success) else .error ()
  | .setOwner isOwner => .ok ((), { e with isOwner })
  | .dispose | .cancelAndDrain => .ok ((), e.dispose)
  | .drained active => if e.running ∧ active = some e.runs then .error () else .ok ((), e)

end Engine
end Veritra.Sync
