import Bos3000.Callback.Finalize
import Bos3000.Callback.RunCall

-- One active call: the goroutines that work on it and what they share. A label
-- says which of them moves and what its environment answered.
namespace Bos3000.Callback

-- sync.Once: Do returns when the first call of its function has returned.
inductive Once
  | unused
  | running (body : Body)
  | done
  deriving DecidableEq, Repr

-- Where a goroutine stands in finalizeCall: at activeCalls.Load, at
-- finalized.Do, or in Do.
inductive FinPC
  | load (s : Status)
  | once (s : Status)
  | wait
  deriving DecidableEq, Repr

-- Where runCall stands: before its next statement or, when none is left, waiting
-- for an input; or in finalizeCall.
inductive Run
  | script (todo : List Action) (stage : Stage)
  | finalizing (pc : FinPC) (todo : List Action) (stage : Stage)
  deriving DecidableEq, Repr

structure ForceHangupResponse where
  callID : String
  status : String
  message : String
  deriving DecidableEq, Repr

-- The other goroutines: a disconnect callback, a Shutdown, a ForceHangup request
-- with the row it read.
inductive Thread
  | fsLost
  | fsLostFinalize (pc : FinPC)
  | shutdown
  | shutdownCancel
  | hangup (role : String) (row : CallbackCall)
  | hangupBy (role : String) (row : CallbackCall)
  | hangupCancel (row : CallbackCall)
  | hangupLegs (row : CallbackCall)
  | responded (response : Except APIError ForceHangupResponse)
  | finished
  deriving Repr

inductive Effect
  | run (m : Moment)
  | body (stmt : Stmt) (o : Outcome)
  | hangupCall (uuid cause : String)
  deriving DecidableEq, Repr

-- activeCall with the state of its context, the call's entry in activeCalls and
-- its row of callback_calls.
structure ActiveCall where
  call : CallbackCall
  row : CallbackCall
  inMap : Bool
  cancelled : Bool
  eventCh : List CallEvent
  finalized : Once
  runCall : Run
  threads : List Thread
  log : List Effect
  deriving Repr

inductive Label
  | resume (i : Input)
  | exec (now : Time) (ok : Bool)
  | finalize
  | body (o : Outcome)
  | event (e : CallEvent)
  | fsLost
  | shutdown
  | forceHangup (auth : Option AuthData)
  | thread (k : Nat)
  deriving DecidableEq, Repr

-- InitiateCallback stores the call and starts its runCall.
def ActiveCall.init (call : CallbackCall) : ActiveCall :=
  ⟨call, call, true, false, [], .unused, .script [] .start, [], []⟩

-- Capacity of eventCh.
def eventChCap : Nat := 10

-- The inputs that are there to take. Results of commands and timers can come at
-- any time.
def ActiveCall.offers (w : ActiveCall) : Input → Bool
  | .load found => found = w.inMap
  | .event e => w.eventCh.head? = some e
  | .done => w.cancelled
  | .originated .. | .bridged _ | .timer => true

def ActiveCall.take (w : ActiveCall) : Input → ActiveCall
  | .event _ => { w with eventCh := w.eventCh.tail }
  | _ => w

def ActiveCall.resumeRun (w : ActiveCall) (i : Input) : Option ActiveCall :=
  match w.runCall with
  | .script [] stage =>
      match resume w.call stage i with
      | some (script, next) =>
          if w.offers i then
            some { w.take i with runCall := .script script next, log := w.log ++ [.run (.input i)] }
          else none
      | none => none
  | _ => none

def Action.onCall (now : Time) (call : CallbackCall) : Action → CallbackCall
  | .assign a => a.apply now call
  | _ => call

def Action.onRow (row : CallbackCall) : Action → CallbackCall
  | .updateCallStatus s => { row with status := s }
  | .updateRecordingStatus s => { row with recordingStatus := some s }
  | _ => row

-- The next statement of runCall. `ok` says whether a statement on the database
-- succeeds; runCall ignores its error.
def ActiveCall.execRun (w : ActiveCall) (now : Time) (ok : Bool) : Option ActiveCall :=
  match w.runCall with
  | .script (.finalizeCall s :: todo) stage =>
      some { w with runCall := .finalizing (.load s) todo stage,
                    log := w.log ++ [.run (.act (.finalizeCall s))] }
  | .script (a :: todo) stage =>
      some { w with call := a.onCall now w.call,
                    row := if ok then a.onRow w.row else w.row,
                    runCall := .script todo stage,
                    log := w.log ++ [.run (.act a)] }
  | _ => none

def Body.start (s : Status) : Body := ⟨finalizeBody, s, 0, none⟩

-- The next step of a goroutine in finalizeCall. It returns without a place when
-- finalizeCall returns.
def ActiveCall.finalizeStep (w : ActiveCall) : FinPC → Option (ActiveCall × Option FinPC)
  | .load s => some (w, if w.inMap then some (.once s) else none)
  | .once s =>
      match w.finalized with
      | .unused => some ({ w with finalized := .running (Body.start s) }, some .wait)
      | .running _ => none
      | .done => some (w, none)
  | .wait =>
      match w.finalized with
      | .done => some (w, none)
      | _ => none

def ActiveCall.finalizeRun (w : ActiveCall) : Option ActiveCall :=
  match w.runCall with
  | .finalizing pc todo stage =>
      (w.finalizeStep pc).map fun (v, place) =>
        { v with runCall := match place with
          | some next => .finalizing next todo stage
          | none => .script todo stage }
  | _ => none

-- The next statement of the body. Do is over when the last one is done.
def ActiveCall.bodyStep (w : ActiveCall) (o : Outcome) : Option ActiveCall :=
  match w.finalized with
  | .running ⟨stmt :: todo, status, now, slots⟩ =>
      (stmt.exec w.call w.row ⟨todo, status, now, slots⟩ o).map fun (call, row, body) =>
        { w with call, row,
                 finalized := if todo = [] then .done else .running body,
                 inMap := w.inMap && stmt ≠ .delete,
                 log := w.log ++ [.body stmt o] }
  | _ => none

-- The event handler: an event of a call that is not active, or that finds the
-- channel full, is dropped.
def ActiveCall.deliver (w : ActiveCall) (e : CallEvent) : Option ActiveCall :=
  if e.callID ≠ w.call.callID then none
  else if w.inMap ∧ w.eventCh.length < eventChCap then some { w with eventCh := w.eventCh ++ [e] }
  else some w

def ActiveCall.spawn (w : ActiveCall) (t : Thread) : ActiveCall :=
  { w with threads := w.threads ++ [t] }

-- ForceHangup up to the point where it acts: the role, if the request passes.
def forceHangupCheck (auth : Option AuthData) (call : Option CallbackCall) :
    Except APIError (String × CallbackCall) :=
  match auth with
  | none => .error ⟨.Unauthenticated, "not authenticated"⟩
  | some ad =>
      match call with
      | none => .error ⟨.NotFound, "call not found"⟩
      | some call =>
          if ad.role ≠ "admin" ∧ call.userID ≠ ad.userID then
            .error ⟨.PermissionDenied, "access denied"⟩
          else if call.status.terminal then
            .error ⟨.FailedPrecondition, "call already terminated"⟩
          else .ok (ad.role, call)

def ActiveCall.setThread (w : ActiveCall) (k : Nat) (t : Thread) : ActiveCall :=
  { w with threads := w.threads.set k t }

def ActiveCall.assign (w : ActiveCall) (a : Assign) : ActiveCall :=
  { w with call := a.apply 0 w.call }

-- The next statement of another goroutine.
def ActiveCall.threadStep (w : ActiveCall) (k : Nat) : Option ActiveCall :=
  match w.threads[k]? with
  | some .fsLost =>
      some ((w.assign (.failureReason "fs_connection_lost")).setThread k (.fsLostFinalize (.load .failed)))
  | some (.fsLostFinalize pc) =>
      (w.finalizeStep pc).map fun (v, place) =>
        v.setThread k (match place with
          | some next => .fsLostFinalize next
          | none => .finished)
  | some .shutdown =>
      some ((w.assign (.failureReason "service_shutdown")).setThread k .shutdownCancel)
  | some .shutdownCancel => some ({ w with cancelled := true }.setThread k .finished)
  | some (.hangup role row) =>
      some (w.setThread k (if w.inMap then .hangupBy role row else .hangupLegs row))
  | some (.hangupBy role row) => some ((w.assign (.hangupBy role)).setThread k (.hangupCancel row))
  | some (.hangupCancel row) => some ({ w with cancelled := true }.setThread k (.hangupLegs row))
  | some (.hangupLegs row) =>
      let commands := (row.afsUUID.toList ++ row.bfsUUID.toList).map fun uuid =>
        Effect.hangupCall uuid "NORMAL_CLEARING"
      some ({ w with log := w.log ++ commands }.setThread k
        (.responded (.ok ⟨row.callID, "finished", "Call terminated"⟩)))
  | some (.responded _) | some .finished | none => none

def ActiveCall.step (w : ActiveCall) : Label → Option ActiveCall
  | .resume i => w.resumeRun i
  | .exec now ok => w.execRun now ok
  | .finalize => w.finalizeRun
  | .body o => w.bodyStep o
  | .event e => w.deliver e
  -- sync.Map.Range calls its function with the entries that are stored
  | .fsLost => if w.inMap then some (w.spawn .fsLost) else none
  | .shutdown => if w.inMap then some (w.spawn .shutdown) else none
  | .forceHangup auth =>
      match forceHangupCheck auth (some w.row) with
      | .error e => some (w.spawn (.responded (.error e)))
      | .ok (role, row) => some (w.spawn (.hangup role row))
  | .thread k => w.threadStep k

-- The statements of the body that were executed, in order.
def Effect.stmt? : Effect → Option Stmt
  | .body stmt _ => some stmt
  | _ => none

def ActiveCall.executed (w : ActiveCall) : List Stmt := w.log.filterMap Effect.stmt?

-- What runCall took in and did.
def Effect.moment? : Effect → Option Moment
  | .run m => some m
  | _ => none

def ActiveCall.history (w : ActiveCall) : History := w.log.filterMap Effect.moment?

end Bos3000.Callback
