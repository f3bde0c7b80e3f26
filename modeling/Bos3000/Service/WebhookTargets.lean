import Bos3000.Callback.Notifications
import Bos3000.Webhook.Config
import Bos3000.Webhook.Targets

-- The webhooks of a call go where the row of its user says, as two services wrote it.
namespace Bos3000.Service

open Callback (CallbackCall Notification WebhookConfig publishWebhook)
open Webhook (HTTPSTargets Profiles ProfilesLabel allowedURL isHTTPS keepsHTTPS seeded)

structure Webhooks where
  profiles : Profiles
  deliveries : Webhook.State

-- Nothing but publishWebhook calls CreateAndPublishWebhook.
inductive WebhooksLabel
  | profile (l : ProfilesLabel)
  -- publishWebhook of a call, whose payload is marshalled as data
  | publishWebhook (call : CallbackCall) (readable : Bool) (now : Time) (customData : List UInt8)
      (data : Except String String)
  | webhook (l : Webhook.Label)

-- The columns that publishWebhook selects.
def webhookConfig (profiles : Profiles) (userID : UserID) : Option WebhookConfig :=
  (profiles.users.find userID).map fun u => ⟨u.webhookURL, some ((profiles.secrets userID).getD "")⟩

def Webhooks.publish (s : Webhooks) (n : Notification) (data : Except String String) : Option Webhooks :=
  (Webhook.step s.deliveries (.spawn (.createAndPublishWebhook n.callID n.userID n.webhookURL n.secret
    n.payload.eventType data))).map fun deliveries => { s with deliveries }

def Webhooks.step (s : Webhooks) : WebhooksLabel → Option Webhooks
  | .profile l => (s.profiles.step l).map fun profiles => { s with profiles }
  | .publishWebhook call readable now customData data =>
      match Callback.publishWebhook (if readable then webhookConfig s.profiles call.userID else none) now customData
          call with
      | none => some s
      | some n => s.publish n data
  | .webhook (.spawn (.createAndPublishWebhook ..)) => none
  | .webhook l => (Webhook.step s.deliveries l).map fun deliveries => { s with deliveries }

def Webhooks.init (now : Time) : Webhooks := ⟨seeded now, Webhook.initService⟩

-- Stored URLs are absent, empty or HTTPS, and requests go to HTTPS URLs alone.
def Webhooks.Secure (s : Webhooks) : Prop :=
  HTTPSTargets s.profiles ∧ ∀ post ∈ s.deliveries.shared.posts, isHTTPS post.2.url

instance (s : Webhooks) : Decidable s.Secure := inferInstanceAs (Decidable (_ ∧ ∀ _ ∈ _, _))

def storesHTTPS (s : Webhooks) : WebhooksLabel → Bool
  | .profile l => keepsHTTPS s.profiles l
  | .publishWebhook .. | .webhook _ => true

structure Webhooks.Inv (s : Webhooks) : Prop where
  profiles : HTTPSTargets s.profiles
  deliveries : Webhook.Targets (fun url => isHTTPS url = true) s.deliveries

theorem Webhooks.Inv.secure {s : Webhooks} (h : s.Inv) : s.Secure := ⟨h.profiles, h.deliveries.shared.posts⟩

theorem init_inv (now : Time) : (Webhooks.init now).Inv where
  profiles := by
    intro u hu
    obtain rfl := List.mem_singleton.mp hu
    rfl
  deliveries := Webhook.initService_targets

theorem publishWebhook_url {config : Option WebhookConfig} {now : Time} {customData : List UInt8} {call : CallbackCall}
    {n : Notification} (h : publishWebhook config now customData call = some n) :
    n.webhookURL ≠ "" ∧ ∃ secret, config = some ⟨some n.webhookURL, secret⟩ := by
  unfold publishWebhook at h
  split at h
  · cases h
  · rename_i config
    split at h
    · cases h
    · rename_i url hurl
      split at h
      · cases h
      · rename_i hne
        cases h
        obtain ⟨webhookURL, secret⟩ := config
        cases hurl
        exact ⟨hne, secret, rfl⟩

theorem webhookConfig_eq_some {profiles : Profiles} {userID : UserID} {url : String} {secret : Option String}
    (h : webhookConfig profiles userID = some ⟨some url, secret⟩) :
    ∃ u ∈ profiles.users.rows, u.webhookURL = some url := by
  obtain ⟨u, hfind, hconfig⟩ := Option.map_eq_some_iff.mp h
  simp only [WebhookConfig.mk.injEq] at hconfig
  exact ⟨u, (Table.find_eq_some.mp hfind).1, hconfig.1⟩

theorem publish_inv {s t : Webhooks} {n : Notification} {data : Except String String} (h : s.Inv)
    (hurl : isHTTPS n.webhookURL = true) (hpublish : s.publish n data = some t) : t.Inv := by
  obtain ⟨deliveries, hspawn, rfl⟩ := Option.map_eq_some_iff.mp hpublish
  refine ⟨h.profiles, Webhook.step_targets h.deliveries ?_ hspawn⟩
  intro callID userID webhookURL secret eventType data heq
  cases heq
  exact hurl

theorem Webhooks.step_inv {s t : Webhooks} {label : WebhooksLabel} (h : s.Inv) (hstores : storesHTTPS s label = true)
    (hstep : s.step label = some t) : t.Inv := by
  cases label with
  | profile l =>
      obtain ⟨profiles, hprofile, rfl⟩ := Option.map_eq_some_iff.mp hstep
      exact ⟨Profiles.step_targets h.profiles hstores hprofile, h.deliveries⟩
  | publishWebhook call readable now customData data =>
      simp only [Webhooks.step] at hstep
      split at hstep
      · cases hstep
        exact h
      · rename_i n hn
        obtain ⟨hne, secret, hconfig⟩ := publishWebhook_url hn
        have hread : webhookConfig s.profiles call.userID = some ⟨some n.webhookURL, secret⟩ := by
          cases readable <;> simp_all
        obtain ⟨u, hu, hstored⟩ := webhookConfig_eq_some hread
        have hallowed := h.profiles u hu
        rw [hstored, Option.all_some, allowedURL, Bool.or_eq_true, decide_eq_true_eq] at hallowed
        exact publish_inv h (hallowed.resolve_left hne) hstep
  | webhook l =>
      have hspawned : ∀ callID userID webhookURL secret eventType data,
          l ≠ .spawn (.createAndPublishWebhook callID userID webhookURL secret eventType data) := by
        rintro callID userID webhookURL secret eventType data rfl
        cases hstep
      have hwebhook : (Webhook.step s.deliveries l).map (fun deliveries => { s with deliveries }) = some t := by
        rcases l with ⟨_ | _ | _ | _⟩ | _
        · cases hstep
        all_goals exact hstep
      obtain ⟨deliveries, hnext, rfl⟩ := Option.map_eq_some_iff.mp hwebhook
      exact ⟨h.profiles, Webhook.step_targets h.deliveries
        (fun callID userID webhookURL secret eventType data heq =>
          absurd heq (hspawned callID userID webhookURL secret eventType data)) hnext⟩

-- In every state of a run the stored URLs and those posted to are HTTPS exactly if no
-- CreateUser and no UpdateProfile stores another one. The requests are those to the
-- stored URLs; where a receiver redirects them to is its own choice, and left out.
theorem webhooks_secure {now : Time} {labels : List WebhooksLabel} {s : Webhooks}
    (hrun : Machine.run Webhooks.step (.init now) labels = some s) :
    Machine.Throughout Webhooks.step Webhooks.Secure (.init now) labels ↔
      Machine.run (Machine.restrict storesHTTPS Webhooks.step) (.init now) labels = some s := by
  refine (Machine.restrict_iff_throughout (I := Webhooks.Inv) (init_inv now) (fun _ h => h.secure)
    (fun _ _ _ h hstores hstep => Webhooks.step_inv h hstores hstep) ?_ hrun).symm
  intro s label t _ hstores hstep hsecure
  cases label with
  | profile l =>
      obtain ⟨profiles, hprofile, rfl⟩ := Option.map_eq_some_iff.mp hstep
      exact Profiles.step_untargeted hstores hprofile hsecure.1
  | publishWebhook | webhook => cases hstores

-- A webhook of a call of the seeded user, from its configuration to the request.
def delivered : List WebhooksLabel :=
  [WebhooksLabel.publishWebhook (.new "call-1" 1 "13800000001" "13800000002" none none "gw-a" "gw-b" 60 120 450) true
      0 []
      (.ok "[1]"),
    .webhook (.move 0 (.inserted 1 "[1]" 0)), .webhook (.move 0 (.done 0)), .webhook (.spawn .deliverWebhook),
    .webhook (.move 1 (.received 0)), .webhook (.move 1 (.done 0)), .webhook (.move 1 (.done 0))]

def configured : List WebhooksLabel :=
  WebhooksLabel.profile (.configureWebhook (some ⟨1, "admin"⟩) ⟨"https://example.com/hook"⟩ (some none)
    (.ok (List.replicate 32 0)) none) :: delivered

theorem webhooks_secure_configured : ∃ s, Machine.run Webhooks.step (.init 0) configured = some s ∧
    Machine.Throughout Webhooks.step Webhooks.Secure (.init 0) configured := by
  obtain ⟨s, hs⟩ := Option.isSome_iff_exists.mp
    (show (Machine.run (Machine.restrict storesHTTPS Webhooks.step) (.init 0) configured).isSome =
      true by decide +kernel)
  exact ⟨s, Machine.run_of_restrict hs, (webhooks_secure (Machine.run_of_restrict hs)).mpr hs⟩

-- UpdateProfile stores a URL of the internal network, and the call is posted there.
def redirected : List WebhooksLabel :=
  WebhooksLabel.profile (.updateProfile 1 ⟨none, some "http://10.0.0.5/"⟩ (some 0)) :: delivered

theorem not_secure_redirected : ∃ s, Machine.run Webhooks.step (.init 0) redirected = some s ∧
    ¬ HTTPSTargets s.profiles ∧ s.deliveries.shared.posts.map (fun post => post.2.url) = ["http://10.0.0.5/"] := by
  have hcheck : (Machine.run Webhooks.step (.init 0) redirected).any (fun s => decide (¬ HTTPSTargets s.profiles ∧
      s.deliveries.shared.posts.map (fun post => post.2.url) = ["http://10.0.0.5/"])) = true := by decide +kernel
  obtain ⟨s, hs, hends⟩ := (Option.any_eq_true ..).mp hcheck
  exact ⟨s, hs, of_decide_eq_true hends⟩

end Bos3000.Service
