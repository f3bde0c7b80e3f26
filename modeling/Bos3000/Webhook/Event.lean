import Bos3000.Lib.JsonText
import Bos3000.Types
import Bos3000.Webhook.Sign

-- The events of the webhook topic, from a publisher through their encoding to
-- the request that a worker sends.
namespace Bos3000.Webhook

open JsonText (Text Follows compact copyString copyValue decimal join pieces quote skipSpace unquote)

-- WebhookEvent is published to trigger webhook delivery. The payload is the text
-- of a json.RawMessage.
structure WebhookEvent where
  deliveryID : Int64
  webhookURL : String
  secret : String
  payload : String
  deriving DecidableEq, Repr

def deliveryIDName : Text := ['d', 'e', 'l', 'i', 'v', 'e', 'r', 'y', '_', 'i', 'd']

def webhookURLName : Text := ['w', 'e', 'b', 'h', 'o', 'o', 'k', '_', 'u', 'r', 'l']

def payloadName : Text := ['p', 'a', 'y', 'l', 'o', 'a', 'd']

-- json.Marshal of an event. The tag json:"-" leaves the secret out.
def encode (e : WebhookEvent) : Option Text :=
  (compact e.payload.toList).map fun payload =>
    '{' :: (quote deliveryIDName ++ ':' :: decimal e.deliveryID.toInt ++
      ',' :: (quote webhookURLName ++ ':' :: quote e.webhookURL.toList ++
        ',' :: (quote payloadName ++ ':' :: payload ++ ['}'])))

-- json.Unmarshal finds the field of a member without regard to case. Besides the
-- ASCII letters it folds the long s and the Kelvin sign.
def fold (c : Char) : Char :=
  if c = '\u017F' then 's' else if c = '\u212A' then 'k' else c.toLower

def sameName (name field : Text) : Bool := name.map fold = field.map fold

def null : Text := ['n', 'u', 'l', 'l']

-- A member of the object, with the text of its value. A null leaves a number or
-- a string as it was.
def assign (name value : Text) (e : WebhookEvent) : Option WebhookEvent :=
  if sameName name deliveryIDName then
    if value = null then some e
    else (parseInt (String.ofList value)).map fun n => { e with deliveryID := Int64.ofInt n }
  else if sameName name webhookURLName then
    match value with
    | '"' :: rest => some { e with webhookURL := String.ofList (unquote rest.dropLast) }
    | _ => if value = null then some e else none
  else if sameName name payloadName then some { e with payload := String.ofList value }
  else some e

-- What a reader took of the text it was given.
def consumed (cs left : Text) : Text := cs.take (cs.length - left.length)

-- The members of an object after its brace.
def members : Nat → WebhookEvent → Text → Option (WebhookEvent × Text)
  | 0, _, _ => none
  | n + 1, e, cs =>
      match skipSpace cs with
      | '"' :: rest =>
          (copyString rest).bind fun (_, left) =>
            let name := unquote (consumed rest left).dropLast
            match skipSpace left with
            | ':' :: rest =>
                let text := skipSpace rest
                (copyValue text.length text).bind fun (_, left) =>
                  (assign name (consumed text left) e).bind fun e =>
                    match skipSpace left with
                    | ',' :: rest => members n e rest
                    | '}' :: rest => some (e, rest)
                    | _ => none
            | _ => none
      | _ => none

-- json.Unmarshal into a new event.
def decode (text : Text) : Option WebhookEvent :=
  match skipSpace text with
  | '{' :: rest =>
      match skipSpace rest with
      | '}' :: rest => if skipSpace rest = [] then some ⟨0, "", "", ""⟩ else none
      | rest =>
          (members rest.length ⟨0, "", "", ""⟩ rest).bind fun (e, rest) =>
            if skipSpace rest = [] then some e else none
  | _ => none

theorem consumed_append (cs left : Text) : consumed (cs ++ left) left = cs := by
  simp [consumed]

-- A member as the encoder writes it, followed by what ends it.
theorem members_member (n : Nat) (e : WebhookEvent) {name value : Text} {c : Char} (rest : Text)
    (hvalue : ∀ m, value.length ≤ m → ∀ tail, Follows tail → copyValue m (value ++ tail) = some (value, tail))
    (hopens : ∃ first more, value = first :: more ∧ JsonText.isSpace first = false)
    (hend : c = ',' ∨ c = '}') :
    members (n + 1) e (quote name ++ ':' :: value ++ c :: rest) =
      (assign name value e).bind fun e => if c = ',' then members n e rest else some (e, rest) := by
  have hc : JsonText.isSpace c = false ∧ JsonText.isLiteralChar c = false := by
    rcases hend with rfl | rfl <;> exact ⟨rfl, rfl⟩
  have hstring := JsonText.copyString_quote name (':' :: (value ++ c :: rest))
  have hcopy := hvalue (value ++ c :: rest).length (by simp) (c :: rest) (JsonText.follows_cons hc.2 rest)
  have hskip : skipSpace (value ++ c :: rest) = value ++ c :: rest := by
    obtain ⟨first, more, rfl, hfirst⟩ := hopens
    exact JsonText.skipSpace_cons hfirst _
  have heq : quote name ++ ':' :: value ++ c :: rest =
      '"' :: (name.flatMap JsonText.quoteChar ++ '"' :: (':' :: (value ++ c :: rest))) := by
    simp [quote]
  have hname : unquote (consumed (name.flatMap JsonText.quoteChar ++ '"' :: (':' :: (value ++ c :: rest)))
      (':' :: (value ++ c :: rest))).dropLast = name := by
    have hsplit : name.flatMap JsonText.quoteChar ++ '"' :: (':' :: (value ++ c :: rest)) =
        (name.flatMap JsonText.quoteChar ++ ['"']) ++ ':' :: (value ++ c :: rest) := by simp
    rw [hsplit, consumed_append, List.dropLast_concat, JsonText.unquote_quote]
  rw [heq, members, JsonText.skipSpace_cons (by decide)]
  simp only [hstring, Option.bind_some, JsonText.skipSpace_cons (show JsonText.isSpace ':' = false by decide),
    hskip, hcopy, hname, consumed_append, JsonText.skipSpace_cons hc.1]
  congr 1
  funext e
  rcases hend with rfl | rfl <;> rfl

theorem foldl_digits (digits : Text) (init : Nat) :
    digits.foldl (fun (n : Int) c => 10 * n + (c.toNat - '0'.toNat : Nat)) init =
      (Nat.ofDigitChars 10 digits init : Nat) := by
  induction digits generalizing init with
  | nil => rfl
  | cons c rest ih =>
      have hcast : 10 * (init : Int) + (c.toNat - '0'.toNat : Nat) =
          ((10 * init + (c.toNat - '0'.toNat) : Nat) : Int) := by
        push_cast
        rfl
      rw [List.foldl_cons, hcast, ih, Nat.ofDigitChars_cons]

theorem parseInt_decimal (n : Int64) : parseInt (String.ofList (decimal n.toInt)) = some n.toInt := by
  have hlower := n.le_toInt
  have hupper := n.toInt_lt
  have hdigits : ((Nat.toDigits 10 n.toInt.natAbs).all Char.isDigit) = true :=
    List.all_eq_true.mpr (JsonText.isDigit_toDigits _)
  have hvalue : (Nat.toDigits 10 n.toInt.natAbs).foldl (fun (n : Int) c => 10 * n + (c.toNat - '0'.toNat : Nat)) 0 =
      n.toInt.natAbs := by
    rw [← Int.natCast_zero, foldl_digits, Nat.ofDigitChars_ten_toDigits]
  have hne : Nat.toDigits 10 n.toInt.natAbs ≠ [] := Nat.toDigits_ne_nil
  by_cases hneg : n.toInt < 0
  · have hback : -(n.toInt.natAbs : Int) = n.toInt := by omega
    simp only [parseInt, decimal, if_pos hneg, String.toList_ofList, if_pos (And.intro hne hdigits), hvalue,
      Option.map_some, hback, Option.filter_some]
    simp
    omega
  · have hback : (n.toInt.natAbs : Int) = n.toInt := by omega
    simp only [parseInt, decimal, if_neg hneg, String.toList_ofList]
    split
    · rename_i rest heq
      have hminus := JsonText.isDigit_toDigits n.toInt.natAbs '-' (by simp [heq])
      cases hminus
    · rename_i rest heq
      have hplus := JsonText.isDigit_toDigits n.toInt.natAbs '+' (by simp [heq])
      cases hplus
    · simp only [if_pos (And.intro hne hdigits), hvalue, hback, Option.filter_some]
      simp
      omega

-- What a worker receives of a published event.
def WebhookEvent.received (e : WebhookEvent) : WebhookEvent :=
  { e with secret := "", payload := String.ofList ((compact e.payload.toList).getD []) }

theorem assign_deliveryID (n : Int64) (e : WebhookEvent) :
    assign deliveryIDName (decimal n.toInt) e = some { e with deliveryID := n } := by
  have hparse := parseInt_decimal n
  have hnull : decimal n.toInt ≠ null := by
    intro heq
    rw [heq] at hparse
    have hnone : parseInt (String.ofList null) = none := by decide
    rw [hnone] at hparse
    cases hparse
  have hname : sameName deliveryIDName deliveryIDName = true := by decide
  unfold assign
  rw [if_pos hname, if_neg hnull, hparse, Option.map_some, Int64.ofInt_toInt]

theorem assign_webhookURL (url : String) (e : WebhookEvent) :
    assign webhookURLName (quote url.toList) e = some { e with webhookURL := url } := by
  have hfirst : sameName webhookURLName deliveryIDName = false := by decide
  have hname : sameName webhookURLName webhookURLName = true := by decide
  have hstring : unquote ((url.toList.flatMap JsonText.quoteChar ++ ['"'] : Text).dropLast) = url.toList := by
    rw [List.dropLast_concat, JsonText.unquote_quote]
  unfold assign
  rw [hfirst, if_neg Bool.false_ne_true, if_pos hname]
  simp only [quote, hstring, String.ofList_toList]

theorem assign_payload (value : Text) (e : WebhookEvent) :
    assign payloadName value e = some { e with payload := String.ofList value } := by
  have hfirst : sameName payloadName deliveryIDName = false := by decide
  have hsecond : sameName payloadName webhookURLName = false := by decide
  have hname : sameName payloadName payloadName = true := by decide
  unfold assign
  rw [hfirst, if_neg Bool.false_ne_true, hsecond, if_neg Bool.false_ne_true, if_pos hname]

-- Decoding undoes encoding except for the secret, and the payload comes out compact.
theorem decode_encode {e : WebhookEvent} {text : Text} (h : encode e = some text) :
    decode text = some e.received := by
  obtain ⟨payload, hcompact, rfl⟩ := Option.map_eq_some_iff.mp h
  obtain ⟨⟨first, more, hpayload, hopens⟩, hcopy⟩ := JsonText.copyValue_compact hcompact
  have hdecimal : ∀ m, (decimal e.deliveryID.toInt).length ≤ m → ∀ tail, Follows tail →
      copyValue m (decimal e.deliveryID.toInt ++ tail) = some (decimal e.deliveryID.toInt, tail) := by
    intro m hm tail htail
    obtain ⟨c, rest, heq⟩ := JsonText.decimal_cons e.deliveryID.toInt
    obtain ⟨m, rfl⟩ : ∃ k, m = k + 1 := ⟨m - 1, by grind⟩
    exact JsonText.copyValue_decimal _ m htail
  have hurl : ∀ m, (quote e.webhookURL.toList).length ≤ m → ∀ tail, Follows tail →
      copyValue m (quote e.webhookURL.toList ++ tail) = some (quote e.webhookURL.toList, tail) := by
    intro m hm tail _
    obtain ⟨m, rfl⟩ : ∃ k, m = k + 1 := ⟨m - 1, by grind [quote]⟩
    exact JsonText.copyValue_quote m _ tail
  have hdigit : ∃ c rest, decimal e.deliveryID.toInt = c :: rest ∧ JsonText.isSpace c = false := by
    obtain ⟨c, rest, heq⟩ := JsonText.decimal_cons e.deliveryID.toInt
    have hc := JsonText.isLiteralChar_decimal e.deliveryID.toInt c (by simp [heq])
    exact ⟨c, rest, heq, JsonText.isSpace_of_isLiteralChar hc⟩
  let third := quote payloadName ++ ':' :: payload ++ ['}']
  let second := quote webhookURLName ++ ':' :: quote e.webhookURL.toList ++ ',' :: third
  let start := quote deliveryIDName ++ ':' :: decimal e.deliveryID.toInt ++ ',' :: second
  obtain ⟨k, hk⟩ : ∃ k, start.length = k + 3 := ⟨start.length - 3, by simp [start, second, quote]; omega⟩
  have hmembers : members start.length ⟨0, "", "", ""⟩ start = some (e.received, []) := by
    have hreceived : e.received = ⟨e.deliveryID, e.webhookURL, "", String.ofList payload⟩ := by
      simp [WebhookEvent.received, hcompact]
    rw [hk, members_member (k + 2) _ second hdecimal hdigit (.inl rfl), assign_deliveryID, Option.bind_some,
      if_pos rfl, members_member (k + 1) _ third hurl ⟨'"', _, rfl, rfl⟩ (.inl rfl), assign_webhookURL,
      Option.bind_some, if_pos rfl, members_member k _ [] hcopy ⟨first, more, hpayload, hopens.isSpace⟩ (.inr rfl),
      assign_payload, Option.bind_some, if_neg (by decide), hreceived]
  have hstart : ∃ rest, start = '"' :: rest := ⟨_, rfl⟩
  obtain ⟨rest, hrest⟩ := hstart
  change decode ('{' :: start) = _
  rw [decode, JsonText.skipSpace_cons (by decide)]
  rw [hrest] at hmembers ⊢
  simp only [JsonText.skipSpace_cons (show JsonText.isSpace '"' = false by decide)]
  split
  · rename_i heq
    simp at heq
  · rw [hmembers]
    rfl

-- The request that DeliverWebhook makes of an event.
structure PostRequest where
  url : String
  contentType : String
  signature : String
  deliveryID : String
  body : List UInt8
  deriving DecidableEq

def WebhookEvent.request (e : WebhookEvent) : PostRequest where
  url := e.webhookURL
  contentType := "application/json"
  signature := signPayload e.secret (utf8 e.payload)
  deliveryID := String.ofList (decimal e.deliveryID.toInt)
  body := utf8 e.payload

theorem compact_received {e : WebhookEvent} {text : Text} (h : encode e = some text) :
    compact e.payload.toList = some e.received.payload.toList := by
  obtain ⟨payload, hcompact, _⟩ := Option.map_eq_some_iff.mp h
  simp [WebhookEvent.received, hcompact]

-- What a subscriber relies on: the worker has the event as it was published, its
-- payload the same JSON, and the request verifies under the subscriber's secret.
structure Arrives (e received : WebhookEvent) : Prop where
  deliveryID : received.deliveryID = e.deliveryID
  webhookURL : received.webhookURL = e.webhookURL
  secret : received.secret = e.secret
  payload : compact e.payload.toList = some received.payload.toList
  verifies : verifySignature e.secret received.request.body received.request.signature = true

-- An event arrives exactly where its subscriber has no secret.
theorem arrives_iff (e : WebhookEvent) {text : Text} (h : encode e = some text) :
    (∃ received, decode text = some received ∧ Arrives e received) ↔ e.secret = "" := by
  have hdecode := decode_encode h
  constructor
  · rintro ⟨received, hreceived, harrives⟩
    rw [hdecode, Option.some.injEq] at hreceived
    subst hreceived
    exact harrives.secret.symm
  · intro hsecret
    refine ⟨e.received, hdecode, rfl, rfl, hsecret.symm, compact_received h, ?_⟩
    rw [hsecret]
    exact decide_eq_true rfl

def withoutSecret : WebhookEvent := ⟨7, "https://example.com/hook", "", "[1]"⟩

theorem arrives_withoutSecret :
    ∃ text, encode withoutSecret = some text ∧ ∃ received, decode text = some received ∧
      Arrives withoutSecret received := by
  obtain ⟨text, htext⟩ := Option.isSome_iff_exists.mp
    (show (encode withoutSecret).isSome = true by decide +kernel)
  exact ⟨text, htext, (arrives_iff withoutSecret htext).mpr rfl⟩

def withSecret : WebhookEvent := { withoutSecret with secret := "s3cret" }

-- The request is signed under the empty key, and the subscriber's secret rejects it.
theorem withSecret_rejected : ∃ text received, encode withSecret = some text ∧ decode text = some received ∧
    received.secret ≠ withSecret.secret ∧
    verifySignature withSecret.secret received.request.body received.request.signature = false ∧
    verifySignature "" received.request.body received.request.signature = true := by
  obtain ⟨text, htext⟩ := Option.isSome_iff_exists.mp
    (show (encode withSecret).isSome = true by decide +kernel)
  exact ⟨text, _, htext, decode_encode htext, by decide, by decide +kernel, by decide +kernel⟩

end Bos3000.Webhook
