import Mathlib.Data.List.Dedup
import Chinwag.Lib.Json
import Chinwag.Alerts.Budget

/-!
# A notification on its way to Discord

`AlertmanagerWebhook` with one message for each category. What becomes of a post is the outcome of
its category, and each category is posted at most once.
-/
namespace Chinwag.Alerts

/-- The client with its webhook URLs by category; a category without one reads as empty. -/
structure DiscordClient where
  webhooks : List (String × String)

namespace DiscordClient

variable (c : DiscordClient)

def webhook (category : String) : String := (c.webhooks.lookup category).getD ""

def hasWebhooks : Bool := c.webhooks.any fun entry => entry.2 ≠ ""

def urlFor (category : String) : String := if c.webhook category ≠ "" then c.webhook category else c.webhook "default"

end DiscordClient

/-- `LoadConfig` takes the URLs that are set. -/
def loadWebhooks (getenv : String → String) : List (String × String) :=
  [("default", getenv "DISCORD_WEBHOOK_URL"), ("incidents", getenv "DISCORD_WEBHOOK_URL_INCIDENTS"),
    ("deployments", getenv "DISCORD_WEBHOOK_URL_DEPLOYMENTS"), ("traffic", getenv "DISCORD_WEBHOOK_URL_TRAFFIC"),
    ("recoveries", getenv "DISCORD_WEBHOOK_URL_RECOVERIES"), ("warnings", getenv "DISCORD_WEBHOOK_URL_WARNINGS")].filter
    fun entry => entry.2 ≠ ""

def alertCategory (a : Alert) (payloadStatus : String) : String :=
  if effectiveStatus a payloadStatus = "resolved" then "recoveries"
  else if labelValue a "category" "" ≠ "" then labelValue a "category" ""
  else "default"

def groupByCategory (p : AlertmanagerPayload) : String → List Alert :=
  p.alerts.foldl (fun groups a =>
    Function.update groups (alertCategory a (payloadStatus p)) (groups (alertCategory a (payloadStatus p)) ++ [a]))
    fun _ => []

/-- The keys of the groups in order. -/
def categories (p : AlertmanagerPayload) : List String :=
  ((p.alerts.map fun a => alertCategory a (payloadStatus p)).dedup).mergeSort fun c d => decide (c ≤ d)

/-- A message posted for a category; `Send` gave no error exactly if it was accepted. -/
structure Post where
  category : String
  url : String
  message : DiscordMessage
  accepted : Bool

/-- `Send`, of a post that came back with a status or not at all. -/
def send (url : String) (outcome : Option ℕ) : Bool :=
  if url = "" then false
  else
    match outcome with
    | none => false
    | some status => ¬ (status < 200 ∨ 299 < status)

/-- The body of a request, decoded. -/
inductive Incoming where
  | malformed
  | trailing
  | payload (p : AlertmanagerPayload)

structure Reply where
  code : ℕ
  body : Json

def errorReply (code : ℕ) (text : String) : Reply := ⟨code, .obj [("error", .str text)]⟩

section Handling

variable (net : UrlReader) (c : DiscordClient) (outcome : String → Option ℕ)

/-- The loop over the categories; one without a webhook is skipped. -/
def posts (p : AlertmanagerPayload) : List Post :=
  (categories p).filterMap fun cat =>
    let url := c.urlFor cat
    if url = "" then none
    else
      let msg := buildMessage net (some ⟨p.status, groupByCategory p cat⟩)
      some ⟨cat, url, msg, send url (outcome cat)⟩

/-- The answer to a notification, with the posts it made. -/
def alertmanagerWebhook : Incoming → Reply × List Post
  | .malformed => (errorReply 400 "invalid json payload", [])
  | .trailing => (errorReply 400 "unexpected trailing data", [])
  | .payload p =>
    if p.alerts = [] then (⟨200, .obj [("status", .str "no alerts to notify")]⟩, [])
    else if ¬ c.hasWebhooks then (errorReply 500 "discord webhook not configured", [])
    else
      let made := posts net c outcome p
      let sent := made.countP fun post => post.accepted
      let failed := made.countP fun post => !post.accepted
      if sent = 0 then
        (if 0 < failed then errorReply 502 "failed to deliver notification to discord"
          else errorReply 500 "no webhook configured for alert categories", made)
      else (⟨200, .obj [("alerts", .int p.alerts.length), ("status", .str "ok")]⟩, made)

/-- The alert is told of by a message that Discord accepted. -/
def Told (status : String) (made : List Post) (a : Alert) : Prop :=
  ∃ post ∈ made, post.accepted = true ∧ ∃ e ∈ post.message.embeds, Renders net status a e

/-- The message tells of the alerts in order, up to the tenth or to where its budget is spent. -/
def TellsOf (status : String) (alerts : List Alert) (m : DiscordMessage) : Prop :=
  ∃ n ≤ 10, List.Forall₂ (Renders net status) (alerts.take n) m.embeds ∧
    (alerts.length ≤ n ∨ n = 10 ∨ m.runes = 6000)

/-- What an answer of success says. -/
structure Delivered (p : AlertmanagerPayload) (made : List Post) : Prop where
  some_accepted : p.alerts = [] ∨ ∃ post ∈ made, post.accepted = true
  accepted : ∀ post ∈ made, post.accepted = true →
    TellsOf net (payloadStatus p) (p.alerts.filter fun a => alertCategory a (payloadStatus p) = post.category)
      post.message

end Handling

/-! ### Groups -/

theorem foldl_groups (category : Alert → String) (alerts : List Alert) (groups : String → List Alert) (cat : String) :
    alerts.foldl (fun groups a => Function.update groups (category a) (groups (category a) ++ [a])) groups cat =
      groups cat ++ alerts.filter fun a => category a = cat := by
  induction alerts generalizing groups with
  | nil => exact (List.append_nil _).symm
  | cons a alerts ih =>
    rw [List.foldl_cons, ih]
    by_cases h : category a = cat
    · subst h
      rw [Function.update_self, List.filter_cons_of_pos (by simp), List.append_assoc]
      rfl
    · rw [Function.update_of_ne (Ne.symm h), List.filter_cons_of_neg (by simpa using h)]

theorem groupByCategory_eq (p : AlertmanagerPayload) (cat : String) :
    groupByCategory p cat = p.alerts.filter fun a => alertCategory a (payloadStatus p) = cat :=
  foldl_groups (fun a => alertCategory a (payloadStatus p)) p.alerts (fun _ => []) cat

section Handling

variable (net : UrlReader) (c : DiscordClient) (outcome : String → Option ℕ) {p : AlertmanagerPayload}

/-- Every post tells of the alerts of its category. -/
theorem posts_tell {post : Post} (h : post ∈ posts net c outcome p) :
    TellsOf net (payloadStatus p) (p.alerts.filter fun a => alertCategory a (payloadStatus p) = post.category)
      post.message := by
  obtain ⟨cat, -, hpost⟩ := List.mem_filterMap.mp h
  dsimp only at hpost
  split at hpost
  · cases hpost
  · cases hpost
    obtain ⟨n, hn, hrenders, -, -, hend⟩ := buildMessage_spec net ⟨p.status, groupByCategory p cat⟩
    dsimp only at hrenders hend
    rw [groupByCategory_eq] at hrenders hend ⊢
    exact ⟨n, hn, hrenders, hend⟩

theorem webhook_posts (halerts : p.alerts ≠ []) (hweb : c.hasWebhooks = true) :
    (alertmanagerWebhook net c outcome (.payload p)).2 = posts net c outcome p := by
  unfold alertmanagerWebhook
  dsimp only
  rw [if_neg halerts, if_neg (not_not_intro hweb)]
  split <;> rfl

/-- When the webhook answers that all went well. -/
theorem ok_cases {incoming : Incoming} (hge : 200 ≤ (alertmanagerWebhook net c outcome incoming).1.code)
    (hle : (alertmanagerWebhook net c outcome incoming).1.code ≤ 299) :
    ∃ p, incoming = .payload p ∧ ((p.alerts = [] ∧ (alertmanagerWebhook net c outcome incoming).2 = []) ∨
      (alertmanagerWebhook net c outcome incoming).2 = posts net c outcome p ∧
        ∃ post ∈ posts net c outcome p, post.accepted = true) := by
  cases incoming with
  | malformed => exact absurd hle (show ¬ 400 ≤ 299 by decide)
  | trailing => exact absurd hle (show ¬ 400 ≤ 299 by decide)
  | payload p =>
    refine ⟨p, rfl, ?_⟩
    unfold alertmanagerWebhook at hle ⊢
    dsimp only at hle ⊢
    split
    · exact .inl ⟨‹_›, rfl⟩
    · rename_i halerts
      rw [if_neg halerts] at hle
      split
      · rename_i hnone
        rw [if_pos hnone] at hle
        exact absurd hle (show ¬ 500 ≤ 299 by decide)
      · rename_i hsome
        rw [if_neg hsome] at hle
        refine .inr ?_
        split
        · rename_i hsent
          rw [if_pos hsent] at hle
          split at hle
          · exact absurd hle (show ¬ 502 ≤ 299 by decide)
          · exact absurd hle (show ¬ 500 ≤ 299 by decide)
        · rename_i hsent
          exact ⟨rfl, List.countP_pos_iff.mp (Nat.pos_of_ne_zero hsent)⟩

end Handling

/-- The alert an embed is about. -/
theorem exists_rendered {net : UrlReader} {status : String} {alerts : List Alert} {embeds : List DiscordEmbed}
    (h : List.Forall₂ (Renders net status) alerts embeds) {e : DiscordEmbed} (he : e ∈ embeds) :
    ∃ a ∈ alerts, Renders net status a e := by
  induction h with
  | nil => cases he
  | cons hhead _ ih =>
    rcases List.mem_cons.mp he with rfl | he
    · exact ⟨_, List.mem_cons_self, hhead⟩
    · obtain ⟨a, ha, hr⟩ := ih he
      exact ⟨a, List.mem_cons_of_mem _ ha, hr⟩

theorem Renders.url_eq {net : UrlReader} {status : String} {a : Alert} {e : DiscordEmbed} (h : Renders net status a e) :
    e.url = validURL net a.generatorURL := by
  obtain ⟨remaining, -, rfl⟩ := h
  rfl

/-! ### Eleven alerts -/

def sampleNet : UrlReader := ⟨fun s => some ("http", String.ofList (s.toList.drop 7)), fun _ => true⟩

/-- Alerts that are told apart by the address of their generator. -/
def sampleAlert (k : ℕ) : Alert := ⟨"firing", fun _ => "", fun _ => "", 0, 0, "http://10.0.0." ++ toString k⟩

def samplePayload : AlertmanagerPayload := ⟨"firing", (List.range 11).map sampleAlert⟩

def sampleClient : DiscordClient := ⟨[("default", "https://discord.com/api/webhooks/1/a")]⟩

theorem sample_group (cat : String) :
    samplePayload.alerts.filter (fun a => alertCategory a (payloadStatus samplePayload) = cat) =
      if "default" = cat then samplePayload.alerts else [] := by
  have hall : ∀ a ∈ samplePayload.alerts, alertCategory a (payloadStatus samplePayload) = "default" := by
    intro a ha
    obtain ⟨k, -, rfl⟩ := List.mem_map.mp ha
    rfl
  split
  · exact List.filter_eq_self.mpr fun a ha => decide_eq_true (by rwa [hall a ha])
  · exact List.filter_eq_nil_iff.mpr fun a ha => by rw [hall a ha]; simpa

theorem sample_first {n k : ℕ} (hn : n ≤ 10) (h : sampleAlert k ∈ samplePayload.alerts.take n) :
    ∃ j < 10, sampleAlert k = sampleAlert j := by
  have hmap : samplePayload.alerts.take n = ((List.range 11).take n).map sampleAlert := List.map_take.symm
  rw [hmap, List.take_range] at h
  obtain ⟨j, hj, heq⟩ := List.mem_map.mp h
  exact ⟨j, by rw [List.mem_range] at hj; omega, heq.symm⟩

/-- The embeds tell the alerts apart. -/
theorem sample_url {k : ℕ} (hk : k < 10) :
    validURL sampleNet (sampleAlert k).generatorURL ≠ validURL sampleNet (sampleAlert 10).generatorURL := by
  revert k
  decide +kernel

end Chinwag.Alerts
