import Bos3000.Lib.Pool
import Bos3000.Types

-- The manager of the connection to FreeSWITCH. Its critical sections are under
-- one mutex, and its goroutines take their steps one after the other.
namespace Bos3000.FSClient

-- ESLFSClient: the events that handlers were registered for, in that order.
structure ESLFSClient where
  handlers : List String
  deriving DecidableEq, Repr

-- A goroutine of handleDisconnect that dials until it has a client.
inductive Reconnect
  | sleeping (backoff : Duration)
  -- has a client, and is about to make it the manager's
  | installing (client : Nat)
  | returned
  deriving DecidableEq, Repr

-- The connections that were dialled, in order, each with its client unless it
-- failed. A client is known by its place among them. Of the health probes, which
-- change nothing here, there is the number of loops.
structure FSClientManager where
  address : String
  connections : List (Option ESLFSClient)
  client : Option Nat
  healthy : Bool
  probes : Nat
  reconnects : List Reconnect
  deriving DecidableEq

def newFSClientManager (address : String) : FSClientManager := ⟨address, [], none, false, 0, []⟩

-- NewESLFSClient, which makes a client without handlers.
def FSClientManager.dial (m : FSClientManager) (succeeds : Bool) : FSClientManager :=
  { m with connections := m.connections ++ [if succeeds then some ⟨[]⟩ else none] }

-- Connect, with the error of NewESLFSClient if there is one. It holds the mutex
-- all the time.
def FSClientManager.connect (m : FSClientManager) (failure : Option String) :
    Except String Unit × FSClientManager :=
  match m.client, failure with
  | some _, _ => (.ok (), m)
  | none, some message => (.error ("connect to FreeSWITCH " ++ m.address ++ ": " ++ message), m.dial false)
  | none, none =>
      (.ok (), { m.dial true with
        client := some m.connections.length
        healthy := true
        probes := m.probes + 1 })

-- Pick returns the FSClient if healthy.
def FSClientManager.pick (m : FSClientManager) : Except String Nat :=
  match m.client with
  | some client => if m.healthy then .ok client else .error "no healthy FreeSWITCH instance"
  | none => .error "no healthy FreeSWITCH instance"

-- handleDisconnect, up to the start of its goroutines.
def FSClientManager.handleDisconnect (m : FSClientManager) : FSClientManager :=
  { m with healthy := false, reconnects := m.reconnects ++ [.sleeping second] }

def maxBackoff : Duration := 30 * second

-- A reconnecting goroutine wakes up and dials.
def FSClientManager.redial (m : FSClientManager) (i : Nat) (succeeds : Bool) : Option FSClientManager :=
  match m.reconnects[i]? with
  | some (.sleeping backoff) =>
      some { m.dial succeeds with
        reconnects := m.reconnects.set i
          (if succeeds then .installing m.connections.length else .sleeping (min (backoff * 2) maxBackoff)) }
  | _ => none

-- It makes its client the manager's, and starts another health probe.
def FSClientManager.install (m : FSClientManager) (i : Nat) : Option FSClientManager :=
  match m.reconnects[i]? with
  | some (.installing client) =>
      some { m with
        client := some client
        healthy := true
        probes := m.probes + 1
        reconnects := m.reconnects.set i .returned }
  | _ => none

-- RegisterEventHandler of a client.
def FSClientManager.registerEventHandler (m : FSClientManager) (client : Nat) (eventName : String) :
    FSClientManager :=
  { m with connections := m.connections.modify client (Option.map fun c => ⟨c.handlers ++ [eventName]⟩) }

-- A goroutine that has a client which it has yet to make the manager's.
def FSClientManager.installs (m : FSClientManager) (i client : Nat) : Prop :=
  m.reconnects[i]? = some (.installing client)

def FSClientManager.has (m : FSClientManager) (client : Nat) : Prop :=
  ∃ c, m.connections[client]? = some (some c)

-- The clients that goroutines have yet to install are nobody else's, where
-- `held` is the client that was picked, if any.
structure FSClientManager.Fresh (m : FSClientManager) (held : Option Nat) : Prop where
  client_has : ∀ c, m.client = some c → m.has c
  held_has : ∀ c, held = some c → m.has c
  installing : ∀ i c, m.installs i c → m.has c ∧ m.client ≠ some c ∧ held ≠ some c
  once : ∀ i j c, m.installs i c → m.installs j c → i = j

section Fresh

variable {m n : FSClientManager} {held : Option Nat}

theorem FSClientManager.has.lt {c : Nat} (h : m.has c) : c < m.connections.length := by
  obtain ⟨_, hc⟩ := h
  exact (List.getElem?_eq_some_iff.mp hc).1

theorem FSClientManager.has.dial {c : Nat} (h : m.has c) (succeeds : Bool) : (m.dial succeeds).has c := by
  obtain ⟨client, hc⟩ := h
  refine ⟨client, ?_⟩
  rw [FSClientManager.dial, List.getElem?_append_left (FSClientManager.has.lt ⟨client, hc⟩)]
  exact hc

theorem has_dial (m : FSClientManager) : (m.dial true).has m.connections.length := by
  refine ⟨⟨[]⟩, ?_⟩
  simp [FSClientManager.dial]

theorem fresh_new (address : String) : (newFSClientManager address).Fresh none where
  client_has := by simp [newFSClientManager]
  held_has := by simp
  installing := by simp [FSClientManager.installs, newFSClientManager]
  once := by simp [FSClientManager.installs, newFSClientManager]

theorem connect_client (m : FSClientManager) (failure : Option String) :
    (m.connect failure).2 = m ∨ (m.connect failure).2 = m.dial false ∨
      (m.connect failure).2.client = some m.connections.length ∧
        (m.connect failure).2.connections = (m.dial true).connections ∧
        (m.connect failure).2.reconnects = m.reconnects := by
  unfold FSClientManager.connect
  split
  · exact .inl rfl
  · exact .inr (.inl rfl)
  · exact .inr (.inr ⟨rfl, rfl, rfl⟩)

theorem FSClientManager.Fresh.connect (h : m.Fresh held) (failure : Option String) :
    (m.connect failure).2.Fresh held := by
  obtain heq | heq | ⟨hclient, hconnections, hreconnects⟩ := connect_client m failure
  · rw [heq]
    exact h
  · rw [heq]
    refine ⟨fun c hc => (h.client_has c hc).dial false, fun c hc => (h.held_has c hc).dial false, ?_, h.once⟩
    intro i c hi
    obtain ⟨hhas, hrest⟩ := h.installing i c hi
    exact ⟨hhas.dial false, hrest⟩
  · have hkeeps : ∀ c, (m.dial true).has c → (m.connect failure).2.has c := by
      rintro c ⟨client, hc⟩
      exact ⟨client, hconnections ▸ hc⟩
    have hsame : ∀ i c, (m.connect failure).2.installs i c ↔ m.installs i c := by
      intro i c
      rw [FSClientManager.installs, hreconnects]
      rfl
    refine ⟨?_, fun c hc => hkeeps c ((h.held_has c hc).dial true), ?_, ?_⟩
    · intro c hc
      rw [hclient, Option.some.injEq] at hc
      rw [← hc]
      exact hkeeps _ (has_dial m)
    · intro i c hi
      obtain ⟨hhas, _, hheld⟩ := h.installing i c ((hsame i c).mp hi)
      have hlt := hhas.lt
      refine ⟨hkeeps c (hhas.dial true), ?_, hheld⟩
      rw [hclient, ne_eq, Option.some.injEq]
      omega
    · intro i j c hi hj
      exact h.once i j c ((hsame i c).mp hi) ((hsame j c).mp hj)

theorem FSClientManager.Fresh.handleDisconnect (h : m.Fresh held) : m.handleDisconnect.Fresh held := by
  have hsame : ∀ i c, m.handleDisconnect.installs i c → m.installs i c := by
    intro i c hi
    unfold FSClientManager.installs FSClientManager.handleDisconnect at hi
    rw [List.getElem?_append] at hi
    split at hi
    · exact hi
    · obtain ⟨_, hsleeping⟩ := List.getElem?_eq_some_iff.mp hi
      simp at hsleeping
  exact ⟨h.client_has, h.held_has, fun i c hi => h.installing i c (hsame i c hi),
    fun i j c hi hj => h.once i j c (hsame i c hi) (hsame j c hj)⟩

theorem redial_eq_some {i : Nat} {succeeds : Bool} (h : m.redial i succeeds = some n) :
    n.client = m.client ∧ n.connections = (m.dial succeeds).connections ∧
      ∀ j c, n.installs j c → m.installs j c ∨ j = i ∧ c = m.connections.length ∧ succeeds = true := by
  unfold FSClientManager.redial at h
  split at h
  · cases h
    refine ⟨rfl, rfl, ?_⟩
    intro j c hj
    obtain ⟨hji, hnext⟩ | ⟨_, hj⟩ := Pool.getElem?_set_cases hj
    · cases succeeds with
      | true => exact .inr ⟨hji, Reconnect.installing.inj hnext, rfl⟩
      | false => cases hnext
    · exact .inl hj
  · cases h

theorem FSClientManager.Fresh.redial (h : m.Fresh held) {i : Nat} {succeeds : Bool}
    (hredial : m.redial i succeeds = some n) : n.Fresh held := by
  obtain ⟨hclient, hconnections, hinstalls⟩ := redial_eq_some hredial
  have hkeeps : ∀ c, (m.dial succeeds).has c → n.has c := by
    rintro c ⟨client, hc⟩
    exact ⟨client, hconnections ▸ hc⟩
  have hnew : ∀ c, m.has c → c ≠ m.connections.length := fun c hhas => Nat.ne_of_lt hhas.lt
  refine ⟨?_, fun c hc => hkeeps c ((h.held_has c hc).dial _), ?_, ?_⟩
  · intro c hc
    rw [hclient] at hc
    exact hkeeps c ((h.client_has c hc).dial _)
  · intro j c hj
    rw [hclient]
    obtain hold | ⟨_, rfl, rfl⟩ := hinstalls j c hj
    · obtain ⟨hhas, hrest⟩ := h.installing j c hold
      exact ⟨hkeeps c (hhas.dial _), hrest⟩
    · exact ⟨hkeeps _ (has_dial m), fun hc => hnew _ (h.client_has _ hc) rfl,
        fun hc => hnew _ (h.held_has _ hc) rfl⟩
  · intro j k c hj hk
    obtain hold | ⟨rfl, rfl, _⟩ := hinstalls j c hj
    · obtain hold' | ⟨rfl, rfl, _⟩ := hinstalls k c hk
      · exact h.once j k c hold hold'
      · exact absurd rfl (hnew _ (h.installing j _ hold).1)
    · obtain hold' | ⟨rfl, _⟩ := hinstalls k _ hk
      · exact absurd rfl (hnew _ (h.installing k _ hold').1)
      · rfl

theorem install_eq_some {i : Nat} (h : m.install i = some n) :
    ∃ c, m.installs i c ∧ n.client = some c ∧ n.connections = m.connections ∧
      ∀ j d, n.installs j d → j ≠ i ∧ m.installs j d := by
  unfold FSClientManager.install at h
  split at h
  · rename_i c hc
    cases h
    refine ⟨c, hc, rfl, rfl, ?_⟩
    intro j d hj
    obtain ⟨_, hnext⟩ | hother := Pool.getElem?_set_cases hj
    · cases hnext
    · exact hother
  · cases h

theorem FSClientManager.Fresh.install (h : m.Fresh held) {i : Nat} (hinstall : m.install i = some n) :
    n.Fresh held := by
  obtain ⟨c, hc, hclient, hconnections, hinstalls⟩ := install_eq_some hinstall
  have hkeeps : ∀ d, m.has d → n.has d := by
    rintro d ⟨client, hd⟩
    exact ⟨client, hconnections ▸ hd⟩
  refine ⟨?_, fun d hd => hkeeps d (h.held_has d hd), ?_, ?_⟩
  · intro d hd
    rw [hclient, Option.some.injEq] at hd
    rw [← hd]
    exact hkeeps c (h.installing i c hc).1
  · intro j d hj
    obtain ⟨hne, hold⟩ := hinstalls j d hj
    obtain ⟨hhas, _, hheld⟩ := h.installing j d hold
    refine ⟨hkeeps d hhas, fun hd => hne ?_, hheld⟩
    rw [hclient, Option.some.injEq] at hd
    subst hd
    exact h.once j i c hold hc
  · intro j k d hj hk
    exact h.once j k d (hinstalls j d hj).2 (hinstalls k d hk).2

theorem FSClientManager.has.registerEventHandler {c : Nat} (h : m.has c) (client : Nat) (eventName : String) :
    (m.registerEventHandler client eventName).has c := by
  obtain ⟨old, hc⟩ := h
  simp only [FSClientManager.has, FSClientManager.registerEventHandler, List.getElem?_modify, hc]
  split <;> simp

theorem FSClientManager.Fresh.registerEventHandler (h : m.Fresh held) (client : Nat) (eventName : String) :
    (m.registerEventHandler client eventName).Fresh held where
  client_has c hc := (h.client_has c hc).registerEventHandler client eventName
  held_has c hc := (h.held_has c hc).registerEventHandler client eventName
  installing i c hi := by
    obtain ⟨hhas, hrest⟩ := h.installing i c hi
    exact ⟨hhas.registerEventHandler client eventName, hrest⟩
  once := h.once

theorem pick_eq_ok {c : Nat} (h : m.pick = .ok c) : m.client = some c := by
  unfold FSClientManager.pick at h
  split at h
  · split at h <;> cases h
    assumption
  · cases h

-- The client that is picked is the manager's.
theorem FSClientManager.Fresh.pick (h : m.Fresh held) {c : Nat} (hpick : m.pick = .ok c) : m.Fresh (some c) where
  client_has := h.client_has
  held_has d hd := h.client_has d ((pick_eq_ok hpick).trans hd)
  installing i d hi := by
    obtain ⟨hhas, hclient, _⟩ := h.installing i d hi
    exact ⟨hhas, hclient, pick_eq_ok hpick ▸ hclient⟩
  once := h.once

end Fresh

end Bos3000.FSClient
