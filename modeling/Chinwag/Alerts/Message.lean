import Chinwag.Lib.UnixTime

/-!
# Alerts as a Discord message

`BuildMessage` and what it calls. Lengths are in runes, and a text is a list of them, as every text
that was read from JSON is.
-/
namespace Chinwag.Alerts

open UnixTime

/-- An alert of an Alertmanager notification; a label that is missing reads as empty. -/
structure Alert where
  status : String
  labels : String → String
  annotations : String → String
  startsAt : ℤ
  endsAt : ℤ
  generatorURL : String

structure AlertmanagerPayload where
  status : String
  alerts : List Alert

structure DiscordField where
  name : String
  value : String
  inlined : Bool
deriving DecidableEq

structure DiscordEmbed where
  title : String
  description : String
  color : ℕ
  url : String
  timestamp : String
  fields : List DiscordField
deriving DecidableEq

structure DiscordMessage where
  embeds : List DiscordEmbed
deriving DecidableEq

def colorRed : ℕ := 0xED4245
def colorGreen : ℕ := 0x57F287

def maxEmbedsPerMessage : ℕ := 10
def fieldValueLimit : ℤ := 1000
def descriptionLimit : ℤ := 2000
def titleLimit : ℤ := 250
def messageCharLimit : ℤ := 6000

def charCount (s : String) : ℤ := s.toList.length

def truncate (s : String) (max : ℤ) : String :=
  if charCount s ≤ max then s
  else if max ≤ 1 then "…"
  else String.ofList (s.toList.take (max - 1).toNat) ++ "…"

def labelValue (a : Alert) (key fallback : String) : String := if a.labels key ≠ "" then a.labels key else fallback

def formatTime (t : ℤ) : String := if t = zeroTime then "" else format t

/-- The smallest duration is its own negative. -/
def absDuration (d : ℤ) : ℤ := if d < 0 then (if d = minDuration then d else -d) else d

def humanizeDuration (d : ℤ) : String :=
  let d := absDuration d
  if d = 0 then "0s"
  else
    let day := 86400 * nanosPerSecond
    let hour := 3600 * nanosPerSecond
    let minute := 60 * nanosPerSecond
    let days := d.tdiv day
    let d := d - days * day
    let hours := d.tdiv hour
    let d := d - hours * hour
    let mins := d.tdiv minute
    let d := d - mins * minute
    let secs := d.tdiv nanosPerSecond
    " ".intercalate ((if 0 < days then [s!"{days}d"] else []) ++ (if 0 < hours then [s!"{hours}h"] else []) ++
      (if 0 < mins then [s!"{mins}m"] else []) ++ [s!"{secs}s"])

/-- `net/url` and `net`, as far as they are asked. -/
structure UrlReader where
  /-- The scheme and the host name of a URL. -/
  parse : String → Option (String × String)
  isIP : String → Bool

section Rendering

variable (net : UrlReader)

def validURL (s : String) : String :=
  match net.parse s with
  | none => ""
  | some (scheme, host) =>
    if scheme ≠ "http" ∧ scheme ≠ "https" then ""
    else if host = "" then ""
    else if ¬ net.isIP host ∧ ¬ host.toList.contains '.' then ""
    else s

def effectiveStatus (a : Alert) (payloadStatus : String) : String := if a.status = "" then payloadStatus else a.status

def buildFields (a : Alert) (resolved : Bool) : List DiscordField :=
  let add (name value : String) (inlined : Bool) : List DiscordField :=
    if value = "" then [] else [⟨name, truncate value fieldValueLimit, inlined⟩]
  add "Service" (labelValue a "service" "") true ++ add "Severity" (labelValue a "severity" "") true ++
    add "Instance" (labelValue a "instance" "") false ++ add "Pod" (labelValue a "pod" "") true ++
    add "Namespace" (labelValue a "namespace" "") true ++ add "Started" (formatTime a.startsAt) false ++
    if resolved then
      add "Resolved" (formatTime a.endsAt) true ++ add "Duration" (humanizeDuration (sub a.endsAt a.startsAt)) true
    else []

/-- The title or the description, and what it leaves of the budget. -/
def draw (text : String) (limit remaining : ℤ) : String × ℤ :=
  if 0 < remaining then
    let part := truncate text (min limit remaining)
    (part, remaining - charCount part)
  else ("", remaining)

/-- The loop over the fields. -/
def drawFields : List DiscordField → ℤ → List DiscordField × ℤ
  | [], remaining => ([], remaining)
  | f :: fs, remaining =>
    if remaining ≤ 0 ∨ remaining ≤ charCount f.name then ([], remaining)
    else
      let v := truncate f.value (min (remaining - charCount f.name) fieldValueLimit)
      if v = "" then ([], remaining)
      else
        let rest := drawFields fs (remaining - (charCount f.name + charCount v))
        (⟨f.name, v, f.inlined⟩ :: rest.1, rest.2)

def summaryOf (a : Alert) : String :=
  let summary := if a.annotations "summary" = "" then a.annotations "description" else a.annotations "summary"
  if summary = "" then "No summary provided" else summary

def titleOf (a : Alert) (resolved : Bool) : String :=
  if resolved then "🟢 " ++ labelValue a "alertname" "Unknown Alert" ++ " (resolved)"
  else "🔴 " ++ labelValue a "alertname" "Unknown Alert"

/-- The embed of an alert, and what is left of the budget after it. -/
def buildEmbed (a : Alert) (payloadStatus : String) (remaining : ℤ) : DiscordEmbed × ℤ :=
  let resolved := effectiveStatus a payloadStatus = "resolved"
  let title := draw (titleOf a resolved) titleLimit remaining
  let description := draw (summaryOf a) descriptionLimit title.2
  let fields := drawFields (buildFields a resolved) description.2
  ({ title := title.1
     description := description.1
     color := if resolved then colorGreen else colorRed
     url := validURL net a.generatorURL
     timestamp := formatTime a.startsAt
     fields := fields.1 }, fields.2)

/-- The loop over the alerts; an empty embed ends it. -/
def buildEmbeds (payloadStatus : String) : List Alert → ℤ → List DiscordEmbed
  | [], _ => []
  | a :: rest, remaining =>
    let (e, left) := buildEmbed net a payloadStatus remaining
    if e.title = "" ∧ e.description = "" ∧ e.fields = [] then [] else e :: buildEmbeds payloadStatus rest left

def payloadStatus (p : AlertmanagerPayload) : String := if p.status = "" then "firing" else p.status

def buildMessage : Option AlertmanagerPayload → DiscordMessage
  | none => ⟨[]⟩
  | some p => ⟨buildEmbeds net (payloadStatus p) (p.alerts.take maxEmbedsPerMessage) messageCharLimit⟩

end Rendering

end Chinwag.Alerts
