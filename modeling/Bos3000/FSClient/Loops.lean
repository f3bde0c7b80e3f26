import Bos3000.FSClient.Manager
import Bos3000.Lib.Machine

-- The goroutines of the manager: how many health probes and reconnections run at a
-- time, and what the end of a connection does that was replaced before.
namespace Bos3000.FSClient

def Reconnect.runs : Reconnect → Bool
  | .sleeping _ | .installing _ => true
  | .returned => false

def FSClientManager.running (m : FSClientManager) : Nat := m.reconnects.countP Reconnect.runs

-- The connections whose client was the manager's before another one are replaced.
structure Watched where
  manager : FSClientManager
  replaced : List Nat

inductive ManagerLabel
  | connect (failure : Option String)
  -- the disconnect callback of a connection, at any time and any number of times
  | disconnect (connection : Nat)
  | redial (i : Nat) (succeeds : Bool)
  | install (i : Nat)
  deriving DecidableEq

def Watched.follow (s : Watched) (m : FSClientManager) : Watched :=
  ⟨m, if m.client = s.manager.client then s.replaced else s.manager.client.toList ++ s.replaced⟩

def Watched.step (s : Watched) : ManagerLabel → Option Watched
  | .connect failure => some (s.follow (s.manager.connect failure).2)
  | .disconnect connection =>
      if connection < s.manager.connections.length then some (s.follow s.manager.handleDisconnect) else none
  | .redial i succeeds => (s.manager.redial i succeeds).map s.follow
  | .install i => (s.manager.install i).map s.follow

def Watched.init (address : String) : Watched := ⟨newFSClientManager address, []⟩

structure Watched.Single (s : Watched) : Prop where
  probes : s.manager.probes ≤ 1
  reconnects : s.manager.running ≤ 1
  -- a connection that was replaced ends without harm to the current client
  harmless : ∀ connection ∈ s.replaced, ∀ t, s.step (.disconnect connection) = some t →
    s.manager.client.isSome → s.manager.healthy = true → t.manager.healthy = true

-- No reconnection succeeds while there is a probe, and no connection ends while a
-- reconnection runs.
def startsSingle (s : Watched) : ManagerLabel → Bool
  | .install _ => s.manager.probes = 0
  | .disconnect _ => s.manager.running = 0
  | .connect _ | .redial _ _ => true

structure Watched.Inv (s : Watched) : Prop where
  probes : s.manager.probes ≤ 1
  reconnects : s.manager.running ≤ 1
  probed : s.manager.client = none ↔ s.manager.probes = 0
  replaced : s.replaced = []

theorem Watched.Inv.single {s : Watched} (h : s.Inv) : s.Single where
  probes := h.probes
  reconnects := h.reconnects
  harmless connection hmem := by simp [h.replaced] at hmem

section Step

variable {m n : FSClientManager} {s t : Watched}

theorem replaced_follow (hreplaced : s.replaced = [])
    (hclient : n.client = s.manager.client ∨ s.manager.client = none) :
    (s.follow n).replaced = [] := by
  unfold Watched.follow
  split
  · exact hreplaced
  · rename_i hne
    rw [hclient.resolve_left hne, hreplaced]
    rfl

theorem connect_cases (m : FSClientManager) (failure : Option String) :
    (m.connect failure).2.reconnects = m.reconnects ∧
      ((m.connect failure).2.client = m.client ∧ (m.connect failure).2.probes = m.probes ∨
        m.client = none ∧ (m.connect failure).2.client.isSome ∧ (m.connect failure).2.probes = m.probes + 1) := by
  unfold FSClientManager.connect
  split
  · exact ⟨rfl, .inl ⟨rfl, rfl⟩⟩
  · exact ⟨rfl, .inl ⟨rfl, rfl⟩⟩
  · rename_i hnone
    exact ⟨rfl, .inr ⟨hnone, rfl, rfl⟩⟩

theorem running_handleDisconnect (m : FSClientManager) : m.handleDisconnect.running = m.running + 1 := by
  simp [FSClientManager.running, FSClientManager.handleDisconnect, Reconnect.runs]

theorem redial_frame {i : Nat} {succeeds : Bool} (h : m.redial i succeeds = some n) :
    n.client = m.client ∧ n.probes = m.probes ∧ n.running = m.running := by
  unfold FSClientManager.redial at h
  split at h
  · rename_i backoff hsleeping
    cases h
    refine ⟨rfl, rfl, ?_⟩
    have hcount := Pool.countP_set_add (y := if succeeds then .installing m.connections.length else
      .sleeping (min (backoff * 2) maxBackoff)) Reconnect.runs hsleeping
    cases succeeds <;> exact Nat.add_right_cancel hcount
  · cases h

theorem install_frame {i : Nat} (h : m.install i = some n) :
    n.client.isSome ∧ n.probes = m.probes + 1 ∧ n.running + 1 = m.running := by
  unfold FSClientManager.install at h
  split at h
  · rename_i client hinstalling
    cases h
    have hcount := Pool.countP_set_add (y := Reconnect.returned) Reconnect.runs hinstalling
    exact ⟨rfl, rfl, hcount⟩
  · cases h

theorem Watched.step_inv {label : ManagerLabel} (h : s.Inv) (hsingle : startsSingle s label = true)
    (hstep : s.step label = some t) : t.Inv := by
  cases label with
  | connect failure =>
      cases hstep
      obtain ⟨hreconnects, hsame | ⟨hnone, hsome, hprobes⟩⟩ := connect_cases s.manager failure
      · refine ⟨hsame.2 ▸ h.probes, ?_, ?_, replaced_follow h.replaced (.inl hsame.1)⟩
        · simpa only [FSClientManager.running, Watched.follow, hreconnects] using h.reconnects
        · simpa only [Watched.follow, hsame.1, hsame.2] using h.probed
      · have hzero := h.probed.mp hnone
        refine ⟨?_, ?_, ?_, replaced_follow h.replaced (.inr hnone)⟩
        · simp only [Watched.follow, hprobes, hzero, Nat.zero_add, Nat.le_refl]
        · simpa only [FSClientManager.running, Watched.follow, hreconnects] using h.reconnects
        · obtain ⟨client, hclient⟩ := Option.isSome_iff_exists.mp hsome
          simp [Watched.follow, hclient, hprobes]
  | disconnect connection =>
      simp only [Watched.step] at hstep
      split at hstep
      · cases hstep
        have hzero : s.manager.running = 0 := of_decide_eq_true hsingle
        refine ⟨h.probes, ?_, h.probed, replaced_follow h.replaced (.inl rfl)⟩
        simp only [Watched.follow, running_handleDisconnect, hzero, Nat.zero_add, Nat.le_refl]
      · cases hstep
  | redial i succeeds =>
      obtain ⟨n, hredial, rfl⟩ := Option.map_eq_some_iff.mp hstep
      obtain ⟨hclient, hprobes, hrunning⟩ := redial_frame hredial
      refine ⟨hprobes ▸ h.probes, hrunning ▸ h.reconnects, ?_, replaced_follow h.replaced (.inl hclient)⟩
      simpa only [Watched.follow, hclient, hprobes] using h.probed
  | install i =>
      obtain ⟨n, hinstall, rfl⟩ := Option.map_eq_some_iff.mp hstep
      obtain ⟨hsome, hprobes, hrunning⟩ := install_frame hinstall
      have hzero : s.manager.probes = 0 := of_decide_eq_true hsingle
      obtain ⟨client, hclient⟩ := Option.isSome_iff_exists.mp hsome
      have hbound := h.reconnects
      refine ⟨?_, ?_, ?_, replaced_follow h.replaced (.inr (h.probed.mpr hzero))⟩
      · simp only [Watched.follow, hprobes, hzero, Nat.zero_add, Nat.le_refl]
      · simp only [Watched.follow]
        omega
      · simp [Watched.follow, hclient, hprobes]

-- A step that fails the condition starts a second loop.
theorem Watched.step_multiplies {label : ManagerLabel} (hsingle : startsSingle s label = false)
    (hstep : s.step label = some t) : ¬ t.Single := by
  intro ht
  cases label with
  | disconnect connection =>
      have hrunning : s.manager.running ≠ 0 := of_decide_eq_false hsingle
      simp only [Watched.step] at hstep
      split at hstep
      · cases hstep
        have hbound := ht.reconnects
        simp only [Watched.follow, running_handleDisconnect] at hbound
        omega
      · cases hstep
  | install i =>
      have hprobe : s.manager.probes ≠ 0 := of_decide_eq_false hsingle
      obtain ⟨n, hinstall, rfl⟩ := Option.map_eq_some_iff.mp hstep
      have hbound := ht.probes
      simp only [Watched.follow, (install_frame hinstall).2.1] at hbound
      omega
  | connect | redial => cases hsingle

end Step

theorem init_inv (address : String) : (Watched.init address).Inv where
  probes := Nat.zero_le _
  reconnects := Nat.zero_le _
  probed := ⟨fun _ => rfl, fun _ => rfl⟩
  replaced := rfl

-- The loops stay single in every state of a run exactly if no reconnection succeeds
-- while a probe runs and no connection ends while a reconnection runs.
theorem loops_single (address : String) {labels : List ManagerLabel} {s : Watched}
    (hrun : Machine.run Watched.step (.init address) labels = some s) :
    Machine.Throughout Watched.step Watched.Single (.init address) labels ↔
      Machine.run (Machine.restrict startsSingle Watched.step) (.init address) labels = some s :=
  (Machine.restrict_iff_throughout (I := Watched.Inv) (init_inv address) (fun _ h => h.single)
    (fun _ _ _ h hsingle hstep => Watched.step_inv h hsingle hstep)
    (fun _ _ _ _ hsingle hstep => Watched.step_multiplies hsingle hstep) hrun).symm

-- Connected, and trying to reconnect.
def disconnected : List ManagerLabel := [.connect none, .disconnect 0, .redial 0 false, .connect none]

theorem loops_single_disconnected : ∃ s, Machine.run Watched.step (.init "127.0.0.1:8021") disconnected = some s ∧
    Machine.Throughout Watched.step Watched.Single (.init "127.0.0.1:8021") disconnected :=
  ⟨_, rfl, (@loops_single "127.0.0.1:8021" disconnected _ rfl).mpr rfl⟩

-- One reconnection leaves two probes, and the first connection, ending once more,
-- makes its healthy successor unhealthy and starts two reconnections.
def replacedEnds : List ManagerLabel :=
  [.connect none, .disconnect 0, .redial 0 true, .install 0]

theorem loops_multiply : ∃ s t u, Machine.run Watched.step (.init "127.0.0.1:8021") replacedEnds = some s ∧
    s.manager.probes = 2 ∧ s.manager.client = some 1 ∧ s.manager.healthy = true ∧ s.replaced = [0] ∧
    s.step (.disconnect 0) = some t ∧ t.manager.client = some 1 ∧ t.manager.healthy = false ∧
    t.step (.disconnect 0) = some u ∧ u.manager.running = 2 ∧ ¬ s.Single ∧ ¬ u.Single := by
  refine ⟨_, _, _, rfl, rfl, rfl, rfl, rfl, rfl, rfl, rfl, rfl, rfl, fun h => ?_, fun h => ?_⟩
  · exact absurd h.probes (by decide)
  · exact absurd h.reconnects (by decide)

end Bos3000.FSClient
