import Bos3000.Callback.Hub
import Bos3000.Lib.Window
import Mathlib.Data.Finset.Lattice.Lemmas

-- To whom the hub sends which events.
namespace Bos3000.Callback.Hub

-- The messages between a client's register and its next unregister.
def membership (client : Client) (labels : List Label) : List Label :=
  Window.window (· = .register client) (· = .unregister client) labels

def isMember (client : Client) (labels : List Label) : Bool :=
  Window.isOpen (· = .register client) (· = .unregister client) labels

def mayReceive (client : Client) (event : CallStatusEvent) : Bool :=
  client.isAdmin || event.userID = client.userID

-- The events among them that a client may receive.
def Label.event? (client : Client) : Label → Option CallStatusEvent
  | .broadcast event true => if mayReceive client event then some event else none
  | _ => none

def offered (client : Client) (labels : List Label) : List CallStatusEvent :=
  (membership client labels).filterMap (Label.event? client)

section Trace

variable {client other : Client} {labels : List Label} {l : Label}

theorem any_register (hnew : Label.register client ∉ labels) :
    labels.any (fun l => decide (l = Label.register client)) = false := by
  rw [List.any_eq_false]
  intro l hl heq
  rw [decide_eq_true_eq] at heq
  exact hnew (heq ▸ hl)

theorem isMember_register (hnew : Label.register client ∉ labels) :
    isMember client (labels ++ [.register client]) = true := by
  rw [isMember, Window.isOpen_concat_fresh (any_register hnew)]
  simp

theorem not_isMember (hnew : Label.register client ∉ labels) : isMember client labels = false := by
  rw [isMember, Window.isOpen, any_register hnew, Bool.false_and]

theorem mem_of_isMember (h : isMember client labels = true) : Label.register client ∈ labels := by
  by_contra hnew
  rw [not_isMember hnew] at h
  cases h

theorem isMember_unregister : isMember client (labels ++ [.unregister client]) = false := by
  cases hany : labels.any (fun l => decide (l = Label.register client)) with
  | false => simp [isMember, Window.isOpen_concat_fresh hany]
  | true => simp [isMember, Window.isOpen_concat hany]

theorem isMember_other (hregister : l ≠ .register client) (hunregister : l ≠ .unregister client) :
    isMember client (labels ++ [l]) = isMember client labels :=
  Window.isOpen_concat_other (by simpa using hregister) (by simpa using hunregister)

theorem offered_concat : offered client (labels ++ [l]) =
    offered client labels ++ if isMember client labels then (l.event? client).toList else [] := by
  unfold offered membership
  cases hmember : isMember client labels with
  | false =>
      rw [Window.window_concat_of_not_isOpen hmember]
      simp
  | true =>
      by_cases hcloses : l = .unregister client
      · subst hcloses
        rw [Window.window_concat_closing (by simp)]
        simp [Label.event?]
      · rw [Window.window_concat_of_isOpen hmember (by simpa using hcloses), List.filterMap_append]
        cases hevent : l.event? client <;> simp [hevent]

theorem offered_silent (hevent : l.event? client = none) :
    offered client (labels ++ [l]) = offered client labels := by
  rw [offered_concat, hevent]
  simp

end Trace

-- Each table has the clients of its kind, and no user is left without any.
structure Tables (h : Hub) : Prop where
  admins : ∀ client ∈ h.adminConns, client.isAdmin = true
  users : ∀ userID, ∀ client ∈ h.conns userID, client.isAdmin = false ∧ client.userID = userID
  inhabited : ∀ userID conns, h.clients userID = some conns → conns ≠ ∅

-- The clients that Run has yet to come to are in the table it ranges over.
def Targets (h : Hub) : Prop :=
  match h.sending with
  | .idle => True
  | .admins _ todo => todo ⊆ h.adminConns
  | .users event todo => todo ⊆ h.conns event.userID

structure Inv (labels : List Label) (h : Hub) : Prop where
  calm : h.panicked = false
  tables : h.Tables
  targets : h.Targets
  members : ∀ client, h.lists client ↔ isMember client labels = true
  closed : ∀ client, (h.send client).closed = true →
    Label.register client ∈ labels ∧ isMember client labels = false
  received : ∀ client, ((h.send client).received).Sublist (offered client labels)
  awaiting : ∀ event todo, h.pending = some (event, todo) → ∀ client ∈ todo, ∃ earlier,
    offered client labels = earlier ++ [event] ∧ ((h.send client).received).Sublist earlier

section Invariant

variable {h k : Hub} {labels : List Label} {client : Client} {event : CallStatusEvent}

theorem Tables.lists_iff (ht : h.Tables) : h.lists client ↔
    client ∈ h.adminConns ∨ ∃ userID, client ∈ h.conns userID := by
  unfold lists
  cases hadmin : client.isAdmin with
  | true =>
      have hnot : ∀ userID, client ∉ h.conns userID := by
        intro userID hmem
        simp [(ht.users userID client hmem).1] at hadmin
      simp [hnot]
  | false =>
      have hnot : client ∉ h.adminConns := by
        intro hmem
        simp [ht.admins client hmem] at hadmin
      simp only [Bool.false_eq_true, if_false, hnot, false_or]
      refine ⟨fun hmem => ⟨_, hmem⟩, ?_⟩
      rintro ⟨userID, hmem⟩
      rwa [(ht.users userID client hmem).2]

theorem Inv.open_of_lists (hinv : Inv labels h) (hlists : h.lists client) :
    (h.send client).closed = false := by
  by_contra hclosed
  have hnot := (hinv.closed client (by simpa using hclosed)).2
  rw [(hinv.members client).mp hlists] at hnot
  cases hnot

theorem inv_new : Inv [] new where
  calm := rfl
  tables := ⟨fun _ hmem => by simp [new] at hmem, fun _ _ hmem => by simp [new, conns] at hmem,
    fun _ _ hconns => by cases hconns⟩
  targets := trivial
  members := fun client => by simp [lists, new, conns, isMember, Window.isOpen]
  closed := fun _ hclosed => by cases hclosed
  received := fun _ => List.nil_sublist _
  awaiting := fun _ _ hpending => by cases hpending

-- Where a label is none of the three messages and the tables stay, only the channels
-- and the rest of the broadcast are left to check.
theorem Inv.frame (hinv : Inv labels h) {l : Label} (hregister : ∀ c, l ≠ .register c)
    (hunregister : ∀ c, l ≠ .unregister c) (hevent : ∀ c, l.event? c = none)
    (hclients : k.clients = h.clients) (hadmins : k.adminConns = h.adminConns)
    (hcalm : k.panicked = false) (htargets : k.Targets)
    (hclosed : ∀ c, (k.send c).closed = (h.send c).closed)
    (hreceived : ∀ c, ((k.send c).received).Sublist (offered c labels))
    (hawaiting : ∀ event todo, k.pending = some (event, todo) → ∀ c ∈ todo, ∃ earlier,
      offered c labels = earlier ++ [event] ∧ ((k.send c).received).Sublist earlier) :
    Inv (labels ++ [l]) k where
  calm := hcalm
  tables := by
    refine ⟨hadmins ▸ hinv.tables.admins, fun userID c hc => ?_, hclients ▸ hinv.tables.inhabited⟩
    rw [conns, hclients] at hc
    exact hinv.tables.users userID c hc
  targets := htargets
  members := by
    intro c
    rw [isMember_other (hregister c) (hunregister c), ← hinv.members c]
    simp only [lists, conns, hclients, hadmins]
  closed := by
    intro c hc
    rw [hclosed] at hc
    obtain ⟨hmem, hnot⟩ := hinv.closed c hc
    rw [isMember_other (hregister c) (hunregister c)]
    exact ⟨List.mem_append_left _ hmem, hnot⟩
  received := by
    intro c
    rw [offered_silent (hevent c)]
    exact hreceived c
  awaiting := by
    intro event todo hpending c hc
    rw [offered_silent (hevent c)]
    exact hawaiting event todo hpending c hc

theorem Inv.register (hinv : Inv labels h) (hidle : h.sending = .idle)
    (hnew : Label.register client ∉ labels) :
    Inv (labels ++ [.register client]) (h.registers client) := by
  have hsend : (h.registers client).send = h.send := by
    unfold registers
    split <;> rfl
  have hsending : (h.registers client).sending = .idle := by
    unfold registers
    split <;> exact hidle
  constructor
  · unfold registers
    split <;> exact hinv.calm
  · constructor
    · intro c hc
      unfold registers at hc
      split at hc
      · rename_i hadmin
        rcases Finset.mem_insert.mp hc with rfl | hc
        · exact hadmin
        · exact hinv.tables.admins c hc
      · exact hinv.tables.admins c hc
    · intro userID c hc
      rw [registers_conns] at hc
      split at hc
      · rename_i hkind
        rcases Finset.mem_insert.mp hc with rfl | hc
        · exact ⟨hkind.1, hkind.2.symm⟩
        · exact hinv.tables.users userID c hc
      · exact hinv.tables.users userID c hc
    · intro userID conns hconns
      unfold registers at hconns
      split at hconns
      · exact hinv.tables.inhabited userID conns hconns
      · by_cases huser : userID = client.userID
        · subst huser
          simp only [Function.update_self, Option.some.injEq] at hconns
          subst hconns
          exact Finset.insert_ne_empty _ _
        · simp only [Function.update_of_ne huser] at hconns
          exact hinv.tables.inhabited userID conns hconns
  · simp [Targets, hsending]
  · intro c
    rw [registers_lists]
    by_cases hc : c = client
    · subst hc
      simp [isMember_register hnew]
    · rw [isMember_other (by simpa using Ne.symm hc) (by simp), ← hinv.members c]
      simp [hc]
  · intro c hc
    rw [hsend] at hc
    obtain ⟨hmem, hnot⟩ := hinv.closed c hc
    have hne : c ≠ client := by
      rintro rfl
      exact hnew hmem
    rw [isMember_other (by simpa using Ne.symm hne) (by simp)]
    exact ⟨List.mem_append_left _ hmem, hnot⟩
  · intro c
    rw [hsend, offered_silent rfl]
    exact hinv.received c
  · intro event todo hpending
    simp [pending, hsending] at hpending

theorem Inv.unregister (hinv : Inv labels h) (hidle : h.sending = .idle) :
    Inv (labels ++ [.unregister client]) (h.unregisters client) := by
  have hmember : ∀ c, isMember c (labels ++ [.unregister client]) = true ↔
      isMember c labels = true ∧ c ≠ client := by
    intro c
    by_cases hc : c = client
    · subst hc
      simp [isMember_unregister]
    · have hother := @isMember_other c labels (.unregister client) (by simp) (by simpa using Ne.symm hc)
      simp [hother, hc]
  have hclosed : ∀ c, isMember c labels = false → isMember c (labels ++ [.unregister client]) = false := by
    intro c hc
    rw [← Bool.not_eq_true, hmember, hc]
    simp
  obtain ⟨hnot, hsame⟩ | ⟨hlists, adminConns, clients, hclose, hadmins, husers, hinhabited⟩ :=
    unregisters_cases h client
  · rw [hsame]
    refine ⟨hinv.calm, hinv.tables, hinv.targets, fun c => ?_, fun c hc => ?_, fun c => ?_, ?_⟩
    · rw [hmember, ← hinv.members]
      refine ⟨fun hc => ⟨hc, ?_⟩, And.left⟩
      rintro rfl
      exact hnot hc
    · obtain ⟨hmem, hno⟩ := hinv.closed c hc
      exact ⟨List.mem_append_left _ hmem, hclosed c hno⟩
    · rw [offered_silent rfl]
      exact hinv.received c
    · intro event todo hpending
      simp [pending, hidle] at hpending
  · rw [hclose]
    refine ⟨?_, ⟨fun c hc => ?_, fun userID c hc => ?_, ?_⟩, ?_, fun c => ?_, fun c hc => ?_, fun c => ?_, ?_⟩
    · simp [close, hinv.calm, hinv.open_of_lists hlists]
    · exact hinv.tables.admins c ((hadmins c).mp hc).1
    · exact hinv.tables.users userID c ((husers userID c).mp hc).1
    · rintro userID conns hconns rfl
      exact hinv.tables.inhabited userID ∅ (hinhabited userID ∅ hconns rfl) rfl
    · simp [Targets, close, hidle]
    · rw [hmember, ← hinv.members, close_lists]
      simp only [lists, conns]
      cases hadmin : c.isAdmin with
      | true =>
          simp only [if_true, hadmins]
          refine and_congr_right fun _ => ⟨?_, .inl⟩
          rintro (hne | hrole)
          · exact hne
          · rintro rfl
            simp [hadmin] at hrole
      | false =>
          simp only [Bool.false_eq_true, if_false, husers]
          refine and_congr_right fun _ => ⟨?_, .inl⟩
          rintro (hne | huser | hrole)
          · exact hne
          · rintro rfl
            exact huser rfl
          · rintro rfl
            simp [hadmin] at hrole
    · by_cases heq : c = client
      · subst heq
        refine ⟨List.mem_append_left _ (mem_of_isMember ((hinv.members c).mp hlists)), ?_⟩
        exact isMember_unregister
      · simp only [close, Function.update_of_ne heq] at hc
        obtain ⟨hmem, hno⟩ := hinv.closed c hc
        exact ⟨List.mem_append_left _ hmem, hclosed c hno⟩
    · have hreceived : (({ h with adminConns, clients }.close client).send c).received = (h.send c).received := by
        by_cases heq : c = client
        · subst heq
          simp [close]
        · simp [close, Function.update_of_ne heq]
      rw [hreceived, offered_silent rfl]
      exact hinv.received c
    · intro event todo hpending
      simp [pending, close, hidle] at hpending

-- The event is sent to every admin and to the clients of its user.
theorem Inv.broadcast (hinv : Inv labels h) :
    Inv (labels ++ [.broadcast event true]) { h with sending := .admins event h.adminConns } := by
  have hmember : ∀ c, isMember c (labels ++ [.broadcast event true]) = isMember c labels :=
    fun c => isMember_other (by simp) (by simp)
  have htables : Tables { h with sending := .admins event h.adminConns } :=
    ⟨hinv.tables.admins, hinv.tables.users, hinv.tables.inhabited⟩
  refine ⟨hinv.calm, htables, Finset.Subset.refl _, fun c => ?_, fun c hc => ?_, fun c => ?_, ?_⟩
  · rw [hmember]
    exact hinv.members c
  · obtain ⟨hmem, hnot⟩ := hinv.closed c hc
    exact ⟨List.mem_append_left _ hmem, (hmember c).trans hnot⟩
  · rw [offered_concat]
    exact (hinv.received c).trans (List.sublist_append_left _ _)
  · intro e todo hpending c hc
    simp only [pending, Option.some.injEq, Prod.mk.injEq] at hpending
    obtain ⟨rfl, rfl⟩ := hpending
    have hlists : h.lists c := by
      rw [hinv.tables.lists_iff]
      exact (Finset.mem_union.mp hc).imp_right fun hmem => ⟨_, hmem⟩
    have hmay : mayReceive c event = true := by
      rcases Finset.mem_union.mp hc with hadmin | huser
      · simp [mayReceive, hinv.tables.admins c hadmin]
      · simp [mayReceive, (hinv.tables.users _ c huser).2]
    refine ⟨offered c labels, ?_, hinv.received c⟩
    rw [offered_concat, (hinv.members c).mp hlists]
    simp [Label.event?, hmay]

-- A client that Run comes to has its channel open and is not come to again.
theorem Inv.put (hinv : Inv labels h) {todo rest : Finset Client} {sending : Sending}
    (hpending : h.pending = some (event, todo)) (hmem : client ∈ todo) (hlists : h.lists client)
    (hnext : ({ h with sending } : Hub).pending = some (event, rest)) (hrest : rest ⊆ todo)
    (hnot : client ∉ rest) (htargets : Targets { h with sending }) :
    Inv (labels ++ [.send client]) ({ h with sending }.put client event) := by
  obtain ⟨hcalm, hclosed, hothers, htaken⟩ :=
    put_open { h with sending } client event (hinv.open_of_lists hlists)
  obtain ⟨earlier, hoffered, hearlier⟩ := hinv.awaiting event todo hpending client hmem
  refine hinv.frame (by simp) (by simp) (fun _ => rfl) (by simp) (by simp) (hcalm.trans hinv.calm) ?_
    hclosed (fun c => ?_) ?_
  · simpa [Targets, conns] using htargets
  · by_cases hc : c = client
    · subst hc
      rcases htaken with htaken | htaken
      · rw [htaken]
        exact hinv.received c
      · rw [htaken, hoffered]
        exact hearlier.append (List.Sublist.refl _)
    · rw [hothers c hc]
      exact hinv.received c
  · intro e remaining hremaining c hc
    rw [put_pending, hnext] at hremaining
    cases hremaining
    have hne : c ≠ client := by
      rintro rfl
      exact hnot hc
    rw [hothers c hne]
    exact hinv.awaiting event todo hpending c (hrest hc)

theorem Inv.step {l : Label} (hinv : Inv labels h) (hunique : ∀ c, (labels ++ [l]).count (.register c) ≤ 1)
    (hstep : h.step l = some k) : Inv (labels ++ [l]) k := by
  obtain ⟨_, hsteps⟩ := steps hstep
  cases hsteps with
  | register client hidle =>
      refine hinv.register hidle fun hmem => ?_
      have hcount := hunique client
      rw [List.count_append, List.count_singleton_self] at hcount
      have hpos := List.count_pos_iff.mpr hmem
      omega
  | unregister client hidle => exact hinv.unregister hidle
  | broadcast event hidle => exact hinv.broadcast
  | skip event hidle =>
      exact hinv.frame (by simp) (by simp) (fun _ => rfl) rfl rfl hinv.calm hinv.targets (fun _ => rfl)
        hinv.received hinv.awaiting
  | admin client event todo hsending hmem =>
      have hadmins : todo ⊆ h.adminConns := by simpa [Targets, hsending] using hinv.targets
      have hadmin : client.isAdmin = true := hinv.tables.admins client (hadmins hmem)
      have hnot : client ∉ h.conns event.userID := by
        intro huser
        simp [(hinv.tables.users _ client huser).1] at hadmin
      refine hinv.put (by simp [pending, hsending]; rfl) (Finset.mem_union_left _ hmem)
        (hinv.tables.lists_iff.mpr (.inl (hadmins hmem))) rfl ?_ ?_ ?_
      · exact Finset.union_subset_union (Finset.erase_subset _ _) (Finset.Subset.refl _)
      · simp only [Finset.mem_union, Finset.mem_erase, ne_eq, not_true_eq_false, false_and, false_or]
        exact hnot
      · exact (Finset.erase_subset _ _).trans hadmins
  | user client event todo hsending hmem =>
      have husers : todo ⊆ h.conns event.userID := by simpa [Targets, hsending] using hinv.targets
      refine hinv.put (by simp [pending, hsending]) hmem
        (hinv.tables.lists_iff.mpr (.inr ⟨_, husers hmem⟩)) rfl (Finset.erase_subset _ _)
        (Finset.notMem_erase _ _) ?_
      exact (Finset.erase_subset _ _).trans husers
  | admitted event hsending =>
      refine hinv.frame (by simp) (by simp) (fun _ => rfl) rfl rfl hinv.calm (Finset.Subset.refl _)
        (fun _ => rfl) hinv.received ?_
      intro e todo hpending
      refine hinv.awaiting e todo ?_
      rw [pending, hsending]
      simpa only [pending, Finset.empty_union] using hpending
  | done event hsending =>
      exact hinv.frame (by simp) (by simp) (fun _ => rfl) rfl rfl hinv.calm trivial (fun _ => rfl)
        hinv.received fun _ _ hpending => by cases hpending
  | drain client buffer =>
      have hkept : ∀ c, ((Function.update h.send client { h.send client with buffer } c).closed =
          (h.send c).closed) ∧
          (Function.update h.send client { h.send client with buffer } c).received = (h.send c).received := by
        intro c
        by_cases hc : c = client
        · subst hc
          simp
        · simp [Function.update_of_ne hc]
      refine hinv.frame (by simp) (by simp) (fun _ => rfl) rfl rfl hinv.calm hinv.targets
        (fun c => (hkept c).1) (fun c => ?_) ?_
      · simp only [(hkept c).2]
        exact hinv.received c
      · intro event todo hpending c hc
        simp only [(hkept c).2]
        exact hinv.awaiting event todo hpending c hc

theorem inv_run (hrun : run labels = some h) (hunique : ∀ c, labels.count (.register c) ≤ 1) :
    Inv labels h := by
  refine Machine.run_induction
    (motive := fun labels h => (∀ c, labels.count (.register c) ≤ 1) → Inv labels h) (fun _ => inv_new) ?_
    hrun hunique
  intro labels l h k _ ih hstep hunique
  refine (ih fun c => ?_).step hunique hstep
  have hcount := hunique c
  rw [List.count_append] at hcount
  omega

theorem mayReceive_of_offered (h : event ∈ offered client labels) : mayReceive client event = true := by
  obtain ⟨l, _, hevent⟩ := List.mem_filterMap.mp h
  cases l with
  | broadcast e marshals =>
      cases marshals with
      | true =>
          simp only [Label.event?, Option.ite_none_right_eq_some, Option.some.injEq] at hevent
          exact hevent.2 ▸ hevent.1
      | false => cases hevent
  | register | unregister | send | next | drain => cases hevent

-- In whatever order the hub takes its messages, it neither sends on a closed channel
-- nor closes one twice, every client receives a subsequence of the events for it
-- between its register and its unregister, and the tables have the clients that are
-- registered, each in its place.
theorem hub_routing (hrun : run labels = some h) (hunique : ∀ c, labels.count (.register c) ≤ 1) :
    h.panicked = false ∧
    (∀ c, ((h.send c).received).Sublist (offered c labels) ∧
      ∀ event ∈ (h.send c).received, c.isAdmin = true ∨ event.userID = c.userID) ∧
    (∀ c, isMember c labels = true →
      if c.isAdmin then c ∈ h.adminConns ∧ ∀ userID, c ∉ h.conns userID
      else c ∉ h.adminConns ∧ ∀ userID, c ∈ h.conns userID ↔ userID = c.userID) ∧
    (∀ c, isMember c labels = false → c ∉ h.adminConns ∧ ∀ userID, c ∉ h.conns userID) ∧
    ∀ userID conns, h.clients userID = some conns → conns ≠ ∅ := by
  have hinv := inv_run hrun hunique
  refine ⟨hinv.calm, fun c => ⟨hinv.received c, fun event hevent => ?_⟩, fun c hc => ?_, fun c hc => ?_,
    hinv.tables.inhabited⟩
  · have hmay := mayReceive_of_offered ((hinv.received c).subset hevent)
    simpa [mayReceive] using hmay
  · have hlists := (hinv.members c).mpr hc
    cases hadmin : c.isAdmin with
    | true =>
        refine ⟨by simpa [lists, hadmin] using hlists, fun userID huser => ?_⟩
        simp [(hinv.tables.users userID c huser).1] at hadmin
    | false =>
        refine ⟨fun hmem => ?_, fun userID => ⟨fun huser => (hinv.tables.users userID c huser).2.symm, ?_⟩⟩
        · simp [hinv.tables.admins c hmem] at hadmin
        · rintro rfl
          simpa [lists, hadmin] using hlists
  · have hnot : ¬ h.lists c := by
      rw [hinv.members c, hc]
      simp
    rw [hinv.tables.lists_iff, not_or, not_exists] at hnot
    exact hnot

end Invariant

-- An event of one user while that user and an admin are connected.
def sampleEvent : CallStatusEvent := ⟨"c1", "a", "bridged", "1111", "2222", 10, 0⟩

def connected : List Label :=
  [.register ⟨0, "admin", true⟩, .register ⟨1, "a", false⟩, .register ⟨2, "b", false⟩,
   .unregister ⟨2, "b", false⟩, .broadcast sampleEvent true, .send ⟨0, "admin", true⟩, .next,
   .send ⟨1, "a", false⟩]

theorem hub_routing_connected : ∃ h, run connected = some h ∧ h.panicked = false ∧
    (h.send ⟨1, "a", false⟩).received = [sampleEvent] ∧
    ((h.send ⟨1, "a", false⟩).received).Sublist (offered ⟨1, "a", false⟩ connected) := by
  have hdistinct : connected.Nodup := by decide
  have hunique : ∀ c, connected.count (Label.register c) ≤ 1 :=
    fun c => List.nodup_iff_count_le_one.mp hdistinct (Label.register c)
  obtain ⟨hcalm, hreceived, _⟩ := @hub_routing _ connected rfl hunique
  exact ⟨_, rfl, hcalm, rfl, (hreceived ⟨1, "a", false⟩).1⟩

end Bos3000.Callback.Hub
