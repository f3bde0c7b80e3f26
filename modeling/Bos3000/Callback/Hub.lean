import Bos3000.Lib.Machine
import Bos3000.Types
import Mathlib.Data.Finset.Basic
import Mathlib.Logic.Function.Basic

-- The hub of the WebSocket clients. Its goroutine takes one message at a time, and
-- sends an event to one client after the other while the clients' writers drain
-- their channels.
namespace Bos3000.Callback

structure CallStatusEvent where
  callID : String
  userID : String
  status : String
  aLeg : String
  bLeg : String
  durationSec : Int
  timestamp : Int64
  deriving DecidableEq, Repr

-- A Client is known by its connection.
structure Client where
  conn : Nat
  userID : String
  isAdmin : Bool
  deriving DecidableEq, Repr

-- The send channel of a client, with everything it ever took.
structure SendChannel where
  buffer : List CallStatusEvent
  closed : Bool
  received : List CallStatusEvent
  deriving DecidableEq, Repr

-- make(chan []byte, 256)
def sendCap : Nat := 256

-- Where Run stands: waiting for a message, or in one of the two loops of a broadcast
-- with the clients that it has not come to.
inductive Sending
  | idle
  | admins (event : CallStatusEvent) (todo : Finset Client)
  | users (event : CallStatusEvent) (todo : Finset Client)

structure Hub where
  clients : String → Option (Finset Client)
  adminConns : Finset Client
  send : Client → SendChannel
  sending : Sending
  panicked : Bool

namespace Hub

def new : Hub := ⟨fun _ => none, ∅, fun _ => ⟨[], false, []⟩, .idle, false⟩

-- A nil map has no clients.
def conns (h : Hub) (userID : String) : Finset Client := (h.clients userID).getD ∅

def registers (h : Hub) (client : Client) : Hub :=
  if client.isAdmin then { h with adminConns := insert client h.adminConns }
  else
    let conns := insert client (h.conns client.userID)
    { h with clients := Function.update h.clients client.userID (some conns) }

-- close(client.send), which panics on a closed channel.
def close (h : Hub) (client : Client) : Hub :=
  { h with send := Function.update h.send client { h.send client with closed := true }
           panicked := h.panicked || (h.send client).closed }

def unregisters (h : Hub) (client : Client) : Hub :=
  if client.isAdmin then
    if client ∈ h.adminConns then { h with adminConns := h.adminConns.erase client }.close client else h
  else
    match h.clients client.userID with
    | some conns =>
        if client ∈ conns then
          let rest := if conns.erase client = ∅ then none else some (conns.erase client)
          { h with clients := Function.update h.clients client.userID rest }.close client
        else h
    | none => h

-- The send of a select with a default: it panics on a closed channel, and drops the
-- event where the buffer is full.
def put (h : Hub) (client : Client) (event : CallStatusEvent) : Hub :=
  let channel := h.send client
  if channel.closed then { h with panicked := true }
  else if channel.buffer.length < sendCap then
    let channel :=
      { channel with buffer := channel.buffer ++ [event], received := channel.received ++ [event] }
    { h with send := Function.update h.send client channel }
  else h

-- The messages that Run takes, the sends of a broadcast and the ends of its loops,
-- and a receive by a client's writePump.
inductive Label
  | register (client : Client)
  | unregister (client : Client)
  | broadcast (event : CallStatusEvent) (marshals : Bool)
  | send (client : Client)
  | next
  | drain (client : Client)
  deriving DecidableEq, Repr

-- A range over a map comes to each of its entries once, in any order.
def step (h : Hub) (l : Label) : Option Hub :=
  if h.panicked then none
  else
    match l, h.sending with
    | .register client, .idle => some (h.registers client)
    | .unregister client, .idle => some (h.unregisters client)
    | .broadcast event true, .idle => some { h with sending := .admins event h.adminConns }
    | .broadcast _ false, .idle => some h
    | .send client, .admins event todo =>
        if client ∈ todo then some ({ h with sending := .admins event (todo.erase client) }.put client event)
        else none
    | .send client, .users event todo =>
        if client ∈ todo then some ({ h with sending := .users event (todo.erase client) }.put client event)
        else none
    | .next, .admins event todo =>
        if todo = ∅ then some { h with sending := .users event (h.conns event.userID) } else none
    | .next, .users _ todo => if todo = ∅ then some { h with sending := .idle } else none
    | .drain client, _ =>
        match (h.send client).buffer with
        | _ :: buffer =>
            some { h with send := Function.update h.send client { h.send client with buffer } }
        | [] => none
    | _, _ => none

def run (labels : List Label) : Option Hub := Machine.run step new labels

-- A client is in the table for its role.
def lists (h : Hub) (client : Client) : Prop :=
  if client.isAdmin then client ∈ h.adminConns else client ∈ h.conns client.userID

-- The event under way with the clients that Run will come to.
def pending (h : Hub) : Option (CallStatusEvent × Finset Client) :=
  match h.sending with
  | .idle => none
  | .admins event todo => some (event, todo ∪ h.conns event.userID)
  | .users event todo => some (event, todo)

section Operations

variable (h : Hub) (client other : Client) (event : CallStatusEvent)

@[simp] theorem put_clients : (h.put client event).clients = h.clients := by
  fun_cases put h client event <;> rfl

@[simp] theorem put_adminConns : (h.put client event).adminConns = h.adminConns := by
  fun_cases put h client event <;> rfl

@[simp] theorem put_sending : (h.put client event).sending = h.sending := by
  fun_cases put h client event <;> rfl

@[simp] theorem put_pending : (h.put client event).pending = h.pending := by
  simp [pending, conns]

-- A send to an open channel appends the event or drops it, and touches no other.
theorem put_open (hopen : (h.send client).closed = false) :
    (h.put client event).panicked = h.panicked ∧
    (∀ d, ((h.put client event).send d).closed = (h.send d).closed) ∧
    (∀ d, d ≠ client → (h.put client event).send d = h.send d) ∧
    (((h.put client event).send client).received = (h.send client).received ∨
      ((h.put client event).send client).received = (h.send client).received ++ [event]) := by
  fun_cases put h client event
  case case1 channel hclosed => exact absurd hclosed (by simp [channel, hopen])
  case case2 =>
      refine ⟨rfl, fun d => ?_, fun d hd => Function.update_of_ne hd .., .inr ?_⟩
      · by_cases hd : d = client
        · subst hd
          simp only [Function.update_self]
          rfl
        · simp only [Function.update_of_ne hd]
      · simp only [Function.update_self]
        rfl
  case case3 => exact ⟨rfl, fun _ => rfl, fun _ _ => rfl, .inl rfl⟩

theorem registers_conns (userID : String) : (h.registers client).conns userID =
    if client.isAdmin = false ∧ userID = client.userID then insert client (h.conns userID)
    else h.conns userID := by
  unfold registers
  cases client.isAdmin with
  | true => rfl
  | false =>
      by_cases huser : userID = client.userID
      · subst huser
        simp [conns]
      · simp [conns, huser]

theorem registers_lists : (h.registers client).lists other ↔ other = client ∨ h.lists other := by
  unfold lists
  rw [registers_conns]
  cases hother : other.isAdmin with
  | true =>
      cases hclient : client.isAdmin with
      | true => simp [registers, hclient]
      | false =>
          have hne : other ≠ client := by
            rintro rfl
            simp [hother] at hclient
          simp [registers, hclient, hne]
  | false =>
      cases hclient : client.isAdmin with
      | true =>
          have hne : other ≠ client := by
            rintro rfl
            simp [hother] at hclient
          simp [hne]
      | false =>
          by_cases huser : other.userID = client.userID
          · simp [huser]
          · have hne : other ≠ client := by
              rintro rfl
              exact huser rfl
            simp [huser, hne]

theorem close_lists : (h.close client).lists other ↔ h.lists other := Iff.rfl

-- Unregister takes the client out of its table and closes its channel, or finds
-- nothing to do.
theorem unregisters_cases :
    (¬ h.lists client ∧ h.unregisters client = h) ∨
    h.lists client ∧ ∃ adminConns clients, h.unregisters client = { h with adminConns, clients }.close client ∧
      (∀ d, d ∈ adminConns ↔ d ∈ h.adminConns ∧ (d ≠ client ∨ client.isAdmin = false)) ∧
      (∀ userID d, d ∈ (clients userID).getD ∅ ↔ d ∈ h.conns userID ∧
        (d ≠ client ∨ userID ≠ client.userID ∨ client.isAdmin = true)) ∧
      ∀ userID conns, clients userID = some conns → conns = ∅ → h.clients userID = some ∅ := by
  fun_cases unregisters h client
  case case1 hadmin hmem =>
      refine .inr ⟨by simpa [lists, hadmin] using hmem, _, h.clients, rfl, ?_, ?_, ?_⟩
      · intro d
        simp [hadmin, and_comm]
      · intro userID d
        simp [hadmin, conns]
      · rintro userID conns hconns rfl
        exact hconns
  case case2 hadmin hmem => exact .inl ⟨by simpa [lists, hadmin] using hmem, rfl⟩
  case case3 hadmin conns hconns hmem rest =>
      refine .inr ⟨by simpa [lists, hadmin, Hub.conns, hconns] using hmem, h.adminConns, _, rfl, ?_, ?_, ?_⟩
      · intro d
        simp [hadmin]
      · intro userID d
        by_cases huser : userID = client.userID
        · subst huser
          rw [Function.update_self]
          have hrest : rest.getD ∅ = conns.erase client := by
            by_cases hempty : conns.erase client = ∅ <;> simp [rest, hempty]
          simp [hrest, Hub.conns, hconns, hadmin, and_comm]
        · rw [Function.update_of_ne huser]
          simp [huser, Hub.conns]
      · rintro userID remaining hremaining rfl
        by_cases huser : userID = client.userID
        · subst huser
          rw [Function.update_self] at hremaining
          by_cases hempty : conns.erase client = ∅ <;> simp [rest, hempty] at hremaining
        · rwa [Function.update_of_ne huser] at hremaining
  case case4 hadmin conns hconns hmem =>
      exact .inl ⟨by simpa [lists, hadmin, Hub.conns, hconns] using hmem, rfl⟩
  case case5 hadmin hnone => exact .inl ⟨by simp [lists, hadmin, Hub.conns, hnone], rfl⟩

end Operations

-- What a step does, by the message or loop it belongs to.
inductive Steps (h : Hub) : Label → Hub → Prop
  | register (client : Client) (hidle : h.sending = .idle) : Steps h (.register client) (h.registers client)
  | unregister (client : Client) (hidle : h.sending = .idle) :
      Steps h (.unregister client) (h.unregisters client)
  | broadcast (event : CallStatusEvent) (hidle : h.sending = .idle) :
      Steps h (.broadcast event true) { h with sending := .admins event h.adminConns }
  | skip (event : CallStatusEvent) (hidle : h.sending = .idle) : Steps h (.broadcast event false) h
  | admin (client : Client) (event : CallStatusEvent) (todo : Finset Client)
      (hsending : h.sending = .admins event todo) (hmem : client ∈ todo) :
      Steps h (.send client) ({ h with sending := .admins event (todo.erase client) }.put client event)
  | user (client : Client) (event : CallStatusEvent) (todo : Finset Client)
      (hsending : h.sending = .users event todo) (hmem : client ∈ todo) :
      Steps h (.send client) ({ h with sending := .users event (todo.erase client) }.put client event)
  | admitted (event : CallStatusEvent) (hsending : h.sending = .admins event ∅) :
      Steps h .next { h with sending := .users event (h.conns event.userID) }
  | done (event : CallStatusEvent) (hsending : h.sending = .users event ∅) :
      Steps h .next { h with sending := .idle }
  | drain (client : Client) (buffer : List CallStatusEvent) :
      Steps h (.drain client) { h with send := Function.update h.send client { h.send client with buffer } }

theorem steps {h k : Hub} {l : Label} (hstep : h.step l = some k) : h.panicked = false ∧ h.Steps l k := by
  revert hstep
  fun_cases step h l <;> intro hstep <;> cases hstep
  case case2 hcalm client hidle => exact ⟨by simpa using hcalm, .register client hidle⟩
  case case3 hcalm client hidle => exact ⟨by simpa using hcalm, .unregister client hidle⟩
  case case4 hcalm event hidle => exact ⟨by simpa using hcalm, .broadcast event hidle⟩
  case case5 hcalm event hidle => exact ⟨by simpa using hcalm, .skip event hidle⟩
  case case6 hcalm client event todo hsending hmem =>
      exact ⟨by simpa using hcalm, .admin client event todo hsending hmem⟩
  case case8 hcalm client event todo hsending hmem =>
      exact ⟨by simpa using hcalm, .user client event todo hsending hmem⟩
  case case10 hcalm event hsending => exact ⟨by simpa using hcalm, .admitted event hsending⟩
  case case12 hcalm event hsending => exact ⟨by simpa using hcalm, .done event hsending⟩
  case case14 hcalm client _ buffer hbuffer => exact ⟨by simpa using hcalm, .drain client buffer⟩

end Hub

end Bos3000.Callback
