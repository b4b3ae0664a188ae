import Chinwag.Lib.UnixTime
import Chinwag.Chat.CacheCoherence

/-!
# A message in the cache and back

A message is written over whatever hash was cached under its id, and read from what that leaves.
-/
namespace Chinwag.Query

open Chat Rfc3339
open UnixTime (ofTime ofTime_printed)

variable {resp read : MessageResponse} {old : Option Hash} {fields : Hash} {t : Time}

/-- Equal but for the zones in which the times are given. -/
structure SameMessage (resp read : MessageResponse) : Prop where
  id : read.id = resp.id
  roomId : read.roomId = resp.roomId
  authorId : read.authorId = resp.authorId
  authorName : read.authorName = resp.authorName
  messageType : read.messageType = resp.messageType
  content : read.content = resp.content
  createdAt : ofTime read.createdAt = ofTime resp.createdAt
  updatedAt : read.updatedAt.map ofTime = resp.updatedAt.map ofTime

/-- The message is read back from the hash it was merged into. -/
def ReadsBack (resp : MessageResponse) (old : Option Hash) : Prop :=
  ∃ read, hashToResponse (mergeFields (responseToHash resp) old) = some read ∧ SameMessage resp read

/-- RFC 3339 has four digits for the year, and for the zone hours below a day and minutes. -/
structure Printable (t : Time) : Prop where
  year : 0 ≤ t.year ∧ t.year ≤ 9999
  zone : (zoneMinutes t.offset).natAbs / 60 < 24
  minutes : wholeMinutes t.offset = t.offset

/-- The `updated_at` that a hash leaves where none is written. -/
def leftOver (old : Option Hash) : String := (old.bind fun fields => fields "updated_at").getD ""

theorem parse_format_iff : (∃ t', parse (format t) = some t' ∧ ofTime t' = ofTime t) ↔ Printable t := by
  constructor
  · rintro ⟨t', hread, hsame⟩
    obtain rfl := parse_format hread
    refine ⟨?_, ?_, (ofTime_printed t).mp hsame⟩
    · by_contra hyear
      rw [format, parse_formatYear hyear] at hread
      cases hread
    · by_contra hzone
      by_cases hyear : 0 ≤ t.year ∧ t.year ≤ 9999
      · rw [format, formatYear_eq hyear, parse_fields hyear (noDigit_formatZone t.offset), readZone_formatZone hzone] at hread
        cases hread
      · rw [format, parse_formatYear hyear] at hread
        cases hread
  · intro h
    exact ⟨t.printed, parse_marshal (marshal_eq_format h.year h.zone), (ofTime_printed t).mpr h.minutes⟩

theorem parseInt16_eq {n : Int} (h : Json.inInt16 n = true) : parseInt16 (toString n) = some n := by
  rw [parseInt16, Redis.tonumber_toString, Option.filter_some, if_pos h]

/-- The decoder field by field. -/
theorem hashToResponse_eq_some : hashToResponse fields = some read ↔
    (fields "id").getD "" ≠ "" ∧ parseInt16 ((fields "message_type").getD "") = some read.messageType ∧
      parse ((fields "created_at").getD "") = some read.createdAt ∧
      parseUpdatedAt ((fields "updated_at").getD "") = some read.updatedAt ∧ (fields "id").getD "" = read.id ∧
      (fields "room_id").getD "" = read.roomId ∧ (fields "author_id").getD "" = read.authorId ∧
      (fields "author_name").getD "" = read.authorName ∧ (fields "content").getD "" = read.content := by
  unfold hashToResponse
  dsimp only
  split
  · next hid =>
    refine iff_of_false nofun fun h => h.1 hid
  · next hid =>
    simp only [Option.bind_eq_bind, Option.bind_eq_some_iff, Option.pure_def, Option.some.injEq]
    constructor
    · rintro ⟨messageType, htype, createdAt, hcreated, updatedAt, hupdated, rfl⟩
      exact ⟨hid, htype, hcreated, hupdated, rfl, rfl, rfl, rfl, rfl⟩
    · rintro ⟨-, htype, hcreated, hupdated, h₁, h₂, h₃, h₄, h₅⟩
      refine ⟨_, htype, _, hcreated, _, hupdated, ?_⟩
      rw [h₁, h₂, h₃, h₄, h₅]

/-- Every field is written over, the time of an update only if there is one. -/
theorem merged_updated_at : (mergeFields (responseToHash resp) old "updated_at").getD "" =
    (resp.updatedAt.map format).getD (leftOver old) := by
  have hwritten : responseToHash resp "updated_at" = resp.updatedAt.map format := rfl
  unfold leftOver
  cases old with
  | none =>
    show (responseToHash resp "updated_at").getD "" = _
    rw [hwritten]
    rfl
  | some fields =>
    show ((responseToHash resp "updated_at").or (fields "updated_at")).getD "" = _
    rw [hwritten]
    cases resp.updatedAt <;> rfl

theorem merged_of_some {name value : String} (h : responseToHash resp name = some value) :
    (mergeFields (responseToHash resp) old name).getD "" = value := by
  cases old with
  | none =>
    show (responseToHash resp name).getD "" = value
    rw [h, Option.getD_some]
  | some fields =>
    show ((responseToHash resp name).or (fields name)).getD "" = value
    rw [h, Option.some_or, Option.getD_some]

/-- What the merged hash is read as. -/
theorem hashToResponse_merged (hint16 : Json.inInt16 resp.messageType = true) :
    hashToResponse (mergeFields (responseToHash resp) old) = some read ↔
      resp.id ≠ "" ∧ resp.messageType = read.messageType ∧ parse (format resp.createdAt) = some read.createdAt ∧
        parseUpdatedAt ((resp.updatedAt.map format).getD (leftOver old)) = some read.updatedAt ∧ resp.id = read.id ∧
        resp.roomId = read.roomId ∧ resp.authorId = read.authorId ∧ resp.authorName = read.authorName ∧
        resp.content = read.content := by
  have hid : (mergeFields (responseToHash resp) old "id").getD "" = resp.id := merged_of_some rfl
  have hroom : (mergeFields (responseToHash resp) old "room_id").getD "" = resp.roomId := merged_of_some rfl
  have hauthor : (mergeFields (responseToHash resp) old "author_id").getD "" = resp.authorId := merged_of_some rfl
  have hname : (mergeFields (responseToHash resp) old "author_name").getD "" = resp.authorName := merged_of_some rfl
  have htype : (mergeFields (responseToHash resp) old "message_type").getD "" = toString resp.messageType :=
    merged_of_some rfl
  have hcontent : (mergeFields (responseToHash resp) old "content").getD "" = resp.content := merged_of_some rfl
  have hcreated : (mergeFields (responseToHash resp) old "created_at").getD "" = format resp.createdAt :=
    merged_of_some rfl
  rw [hashToResponse_eq_some, hid, hroom, hauthor, hname, htype, hcontent, hcreated, merged_updated_at,
    parseInt16_eq hint16, Option.some.injEq]

/-- The time of an update is read back exactly if it can be printed, or there is none in the hash either. -/
theorem parseUpdatedAt_iff (updatedAt : Option Time) (left : String) :
    (∃ updatedAt', parseUpdatedAt ((updatedAt.map format).getD left) = some updatedAt' ∧
      updatedAt'.map ofTime = updatedAt.map ofTime) ↔
    (∀ t, updatedAt = some t → Printable t) ∧ (updatedAt = none → left = "") := by
  unfold parseUpdatedAt
  cases updatedAt with
  | none =>
    rw [Option.map_none, Option.getD_none]
    constructor
    · rintro ⟨updatedAt', hread, hnone⟩
      obtain rfl := Option.map_eq_none_iff.mp hnone
      refine ⟨nofun, fun _ => ?_⟩
      by_contra hleft
      rw [if_neg hleft, Option.map_eq_some_iff] at hread
      obtain ⟨_, -, hsome⟩ := hread
      cases hsome
    · rintro ⟨-, hleft⟩
      rw [if_pos (hleft rfl)]
      exact ⟨none, rfl, rfl⟩
  | some t =>
    rw [Option.map_some, Option.getD_some, if_neg (format_ne_empty t)]
    constructor
    · rintro ⟨updatedAt', hread, hsame⟩
      obtain ⟨t', hparse, rfl⟩ := Option.map_eq_some_iff.mp hread
      have hprintable : Printable t := parse_format_iff.mp ⟨t', hparse, Option.some.inj hsame⟩
      refine ⟨?_, nofun⟩
      rintro _ ⟨⟩
      exact hprintable
    · rintro ⟨hprintable, -⟩
      obtain ⟨t', hparse, hsame⟩ := parse_format_iff.mpr (hprintable t rfl)
      rw [hparse]
      exact ⟨some t', rfl, congrArg some hsame⟩

/-- When a message survives the cache: it has an id, its times can be printed, and where it has not
been updated the hash does not know an update either. -/
structure Survives (resp : MessageResponse) (old : Option Hash) : Prop where
  id : resp.id ≠ ""
  created : Printable resp.createdAt
  updated : ∀ t, resp.updatedAt = some t → Printable t
  fresh : resp.updatedAt = none → leftOver old = ""

theorem reads_back_iff (hint16 : Json.inInt16 resp.messageType = true) : ReadsBack resp old ↔ Survives resp old := by
  have hupdated := parseUpdatedAt_iff resp.updatedAt (leftOver old)
  constructor
  · rintro ⟨read, hdecoded, hsame⟩
    obtain ⟨hid, -, hcreated, hread, -⟩ := (hashToResponse_merged hint16).mp hdecoded
    obtain ⟨hprintable, hfresh⟩ := hupdated.mp ⟨read.updatedAt, hread, hsame.updatedAt⟩
    exact ⟨hid, parse_format_iff.mp ⟨read.createdAt, hcreated, hsame.createdAt⟩, hprintable, hfresh⟩
  · intro h
    obtain ⟨createdAt, hcreated, hcreatedSame⟩ := parse_format_iff.mpr h.created
    obtain ⟨updatedAt, hread, hupdatedSame⟩ := hupdated.mpr ⟨h.updated, h.fresh⟩
    refine ⟨{ resp with createdAt := createdAt, updatedAt := updatedAt }, ?_, ?_⟩
    · exact (hashToResponse_merged hint16).mpr ⟨h.id, rfl, hcreated, hread, rfl, rfl, rfl, rfl, rfl⟩
    · exact ⟨rfl, rfl, rfl, rfl, rfl, rfl, hcreatedSame, hupdatedSame⟩

section Sample

theorem printable_sampleTime : Printable sampleTime := ⟨by decide, by decide, rfl⟩

/-- A message cached twice. -/
theorem sample_reads_back : ReadsBack (toResponse sampleRow) (some sampleHash) :=
  (reads_back_iff (show Json.inInt16 0 = true by decide)).mpr
    ⟨sampleMessage.text_ne_empty, printable_sampleTime, nofun, fun _ => rfl⟩

def editedRow : MessageProjection := { sampleRow with content := "hello there", updatedAt := some sampleTime }

/-- The version from before the edit, cached after the one from after it. -/
theorem stale_update_read : ∃ read,
    hashToResponse (mergeFields (responseToHash (toResponse sampleRow)) (some (responseToHash (toResponse editedRow)))) =
      some read ∧ read.content = "hello" ∧ read.updatedAt = some sampleTime.printed ∧
      ¬ ReadsBack (toResponse sampleRow) (some (responseToHash (toResponse editedRow))) := by
  have hint16 : Json.inInt16 (toResponse sampleRow).messageType = true := by decide
  have hcreated : parse (format sampleTime) = some sampleTime.printed :=
    parse_marshal (marshal_eq_format (by decide) (by decide))
  have hleft : parseUpdatedAt (format sampleTime) = some (some sampleTime.printed) := by
    rw [parseUpdatedAt, if_neg (format_ne_empty sampleTime), hcreated]
    rfl
  refine ⟨{ toResponse sampleRow with createdAt := sampleTime.printed, updatedAt := some sampleTime.printed }, ?_, rfl, rfl,
    ?_⟩
  · exact (hashToResponse_merged hint16).mpr
      ⟨sampleMessage.text_ne_empty, rfl, hcreated, hleft, rfl, rfl, rfl, rfl, rfl⟩
  · rintro ⟨read, hdecoded, hsame⟩
    obtain ⟨-, -, -, hread, -⟩ := (hashToResponse_merged hint16).mp hdecoded
    obtain ⟨-, hfresh⟩ := (parseUpdatedAt_iff none (format sampleTime)).mp ⟨read.updatedAt, hread, hsame.updatedAt⟩
    exact format_ne_empty sampleTime (hfresh rfl)

end Sample

end Chinwag.Query
