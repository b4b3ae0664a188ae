import Mathlib.Algebra.BigOperators.Group.List.Basic
import Mathlib.Tactic.Linarith
import Chinwag.Alerts.Message

/-!
# The limits of a Discord message

One budget is drawn down through the titles, descriptions and fields of all embeds. What is drawn
and what is left always make up what was there.
-/
namespace Chinwag.Alerts

/-! ### Texts -/

theorem charCount_nonneg (s : String) : 0 ≤ charCount s := Int.natCast_nonneg _

theorem charCount_append (s t : String) : charCount (s ++ t) = charCount s + charCount t := by
  unfold charCount
  rw [String.toList_append, List.length_append]
  exact Int.natCast_add _ _

theorem charCount_truncate (s : String) {max : ℤ} (h : 1 ≤ max) : charCount (truncate s max) ≤ max := by
  unfold truncate
  split
  · assumption
  · split
    · exact h
    · have hdots : charCount "…" = 1 := by decide
      rw [charCount_append, hdots]
      have htake : charCount (String.ofList (s.toList.take (max - 1).toNat)) ≤ max - 1 := by
        unfold charCount
        rw [String.toList_ofList, List.length_take]
        omega
      omega

theorem truncate_ne_empty {s : String} (hs : s ≠ "") (max : ℤ) : truncate s max ≠ "" := by
  unfold truncate
  split
  · exact hs
  · split
    · decide
    · exact fun h => absurd (String.append_eq_empty_iff.mp h).2 (by decide)

/-! ### One embed -/

def DiscordField.runes (f : DiscordField) : ℤ := charCount f.name + charCount f.value

def DiscordEmbed.runes (e : DiscordEmbed) : ℤ :=
  charCount e.title + charCount e.description + (e.fields.map DiscordField.runes).sum

def DiscordMessage.runes (m : DiscordMessage) : ℤ := (m.embeds.map DiscordEmbed.runes).sum

structure FieldFits (f : DiscordField) : Prop where
  value_ne : f.value ≠ ""
  value_le : charCount f.value ≤ 1000

/-- An embed that no limit of its own makes Discord refuse. -/
structure EmbedFits (e : DiscordEmbed) : Prop where
  title_ne : e.title ≠ ""
  title_le : charCount e.title ≤ 250
  description_le : charCount e.description ≤ 2000
  fields : ∀ f ∈ e.fields, FieldFits f

theorem draw_spec {text : String} (htext : text ≠ "") {limit remaining : ℤ} (hlimit : 1 ≤ limit) (h : 0 ≤ remaining) :
    charCount (draw text limit remaining).1 + (draw text limit remaining).2 = remaining ∧
      0 ≤ (draw text limit remaining).2 ∧ charCount (draw text limit remaining).1 ≤ limit ∧
      (0 < remaining → (draw text limit remaining).1 ≠ "") := by
  unfold draw
  split
  · rename_i hpos
    have hle := charCount_truncate text (show 1 ≤ min limit remaining by omega)
    dsimp only
    exact ⟨by omega, by omega, by omega, fun _ => truncate_ne_empty htext _⟩
  · have hempty : charCount "" = 0 := rfl
    exact ⟨by rw [hempty]; omega, h, by rw [hempty]; omega, fun hpos => absurd hpos ‹_›⟩

theorem draw_zero (text : String) (limit : ℤ) : draw text limit 0 = ("", 0) := rfl

theorem drawFields_spec (fs : List DiscordField) {remaining : ℤ} (h : 0 ≤ remaining) :
    ((drawFields fs remaining).1.map DiscordField.runes).sum + (drawFields fs remaining).2 = remaining ∧
      0 ≤ (drawFields fs remaining).2 ∧ ∀ f ∈ (drawFields fs remaining).1, FieldFits f := by
  have hstop : (([] : List DiscordField).map DiscordField.runes).sum + remaining = remaining ∧ 0 ≤ remaining ∧
      ∀ f ∈ ([] : List DiscordField), FieldFits f := by
    simpa using h
  fun_induction drawFields fs remaining with
  | case1 => exact hstop
  | case2 => exact hstop
  | case3 => exact hstop
  | case4 f fs remaining hroom v hv rest ih =>
    rw [not_or, not_le, not_le] at hroom
    have hname := charCount_nonneg f.name
    have hbudget : 1 ≤ min (remaining - charCount f.name) fieldValueLimit := by
      unfold fieldValueLimit
      omega
    have hle : charCount v ≤ min (remaining - charCount f.name) fieldValueLimit := charCount_truncate f.value hbudget
    unfold fieldValueLimit at hle
    have hnext : 0 ≤ remaining - (charCount f.name + charCount v) := by omega
    obtain ⟨hsum, hleft, hfits⟩ := ih hnext (by simpa using hnext)
    refine ⟨?_, hleft, List.forall_mem_cons.mpr ⟨⟨hv, by show charCount v ≤ 1000; omega⟩, hfits⟩⟩
    show (DiscordField.runes ⟨f.name, v, f.inlined⟩ + (rest.1.map DiscordField.runes).sum) + rest.2 = remaining
    have hf : DiscordField.runes ⟨f.name, v, f.inlined⟩ = charCount f.name + charCount v := rfl
    have hrest : (rest.1.map DiscordField.runes).sum + rest.2 = remaining - (charCount f.name + charCount v) := hsum
    omega

theorem drawFields_zero (fs : List DiscordField) : drawFields fs 0 = ([], 0) := by
  cases fs with
  | nil => rfl
  | cons f fs => rfl

section Rendering

variable (net : UrlReader)

theorem summaryOf_ne (a : Alert) : summaryOf a ≠ "" := by
  have hdefault : "No summary provided" ≠ "" := by decide
  unfold summaryOf
  dsimp only
  split
  · split
    · exact hdefault
    · assumption
  · assumption

theorem titleOf_ne (a : Alert) (resolved : Bool) : titleOf a resolved ≠ "" := by
  unfold titleOf
  intro h
  split at h
  · have hhead := (String.append_eq_empty_iff.mp (String.append_eq_empty_iff.mp h).1).1
    exact absurd hhead (by decide)
  · exact absurd (String.append_eq_empty_iff.mp h).1 (by decide)

theorem buildEmbed_spec (a : Alert) (status : String) {remaining : ℤ} (h : 0 ≤ remaining) :
    (buildEmbed net a status remaining).1.runes + (buildEmbed net a status remaining).2 = remaining ∧
      0 ≤ (buildEmbed net a status remaining).2 ∧
      (0 < remaining → EmbedFits (buildEmbed net a status remaining).1) := by
  obtain ⟨htitle, htitle0, htitleLe, htitleNe⟩ :=
    draw_spec (titleOf_ne a (effectiveStatus a status = "resolved")) (show 1 ≤ titleLimit by decide) h
  obtain ⟨hdesc, hdesc0, hdescLe, -⟩ := draw_spec (summaryOf_ne a) (show 1 ≤ descriptionLimit by decide) htitle0
  obtain ⟨hfields, hfields0, hfits⟩ :=
    drawFields_spec (buildFields a (effectiveStatus a status = "resolved")) hdesc0
  refine ⟨?_, hfields0, fun hpos => ⟨htitleNe hpos, htitleLe, hdescLe, hfits⟩⟩
  unfold DiscordEmbed.runes buildEmbed
  dsimp only
  omega

/-- Without a budget there is no embed. -/
theorem buildEmbed_zero (a : Alert) (status : String) :
    (buildEmbed net a status 0).1.title = "" ∧ (buildEmbed net a status 0).1.description = "" ∧
      (buildEmbed net a status 0).1.fields = [] := by
  unfold buildEmbed
  simp only [draw_zero, drawFields_zero, and_self]

/-! ### The whole message -/

/-- The embed is that of the alert, under what the earlier ones left of the budget. -/
def Renders (status : String) (a : Alert) (e : DiscordEmbed) : Prop :=
  ∃ remaining, 0 < remaining ∧ e = (buildEmbed net a status remaining).1

/-- The embeds of the first alerts; only a spent budget leaves some out. -/
theorem buildEmbeds_spec (status : String) (alerts : List Alert) {remaining : ℤ} (h : 0 ≤ remaining) :
    ∃ n left, List.Forall₂ (Renders net status) (alerts.take n) (buildEmbeds net status alerts remaining) ∧
      ((buildEmbeds net status alerts remaining).map DiscordEmbed.runes).sum + left = remaining ∧ 0 ≤ left ∧
      (∀ e ∈ buildEmbeds net status alerts remaining, EmbedFits e) ∧ (n = alerts.length ∨ left = 0) := by
  induction alerts generalizing remaining with
  | nil => exact ⟨0, remaining, .nil, by simp [buildEmbeds], h, by simp [buildEmbeds], .inl rfl⟩
  | cons a alerts ih =>
    obtain ⟨hsum, hleft, hfits⟩ := buildEmbed_spec net a status h
    rcases eq_or_lt_of_le h with rfl | hpos
    · refine ⟨0, 0, ?_⟩
      have hstop : buildEmbeds net status (a :: alerts) 0 = [] := if_pos (buildEmbed_zero net a status)
      rw [hstop]
      exact ⟨.nil, rfl, le_refl _, fun e he => absurd he List.not_mem_nil, .inr rfl⟩
    · have hgo : buildEmbeds net status (a :: alerts) remaining =
          (buildEmbed net a status remaining).1 :: buildEmbeds net status alerts (buildEmbed net a status remaining).2 :=
        if_neg fun hempty => (hfits hpos).title_ne hempty.1
      obtain ⟨n, left, hrenders, hrest, hnonneg, hall, hend⟩ := ih hleft
      rw [hgo]
      refine ⟨n + 1, left, ?_, ?_, hnonneg, List.forall_mem_cons.mpr ⟨hfits hpos, hall⟩, hend.imp ?_ id⟩
      · exact .cons ⟨remaining, hpos, rfl⟩ hrenders
      · rw [List.map_cons, List.sum_cons]
        omega
      · intro hn
        rw [hn, List.length_cons]

/-- The message of a payload, up to where the count or the budget ends it. -/
theorem buildMessage_spec (p : AlertmanagerPayload) :
    ∃ n ≤ 10, List.Forall₂ (Renders net (payloadStatus p)) (p.alerts.take n) (buildMessage net (some p)).embeds ∧
      (buildMessage net (some p)).runes ≤ 6000 ∧ (∀ e ∈ (buildMessage net (some p)).embeds, EmbedFits e) ∧
      (p.alerts.length ≤ n ∨ n = 10 ∨ (buildMessage net (some p)).runes = 6000) := by
  obtain ⟨n, left, hrenders, hsum, hleft, hfits, hend⟩ :=
    buildEmbeds_spec net (payloadStatus p) (p.alerts.take maxEmbedsPerMessage) (show 0 ≤ messageCharLimit by decide)
  have hsum' : (buildMessage net (some p)).runes + left = 6000 := hsum
  rw [List.take_take] at hrenders
  refine ⟨min n maxEmbedsPerMessage, Nat.min_le_right _ _, hrenders, by omega, hfits, ?_⟩
  rw [List.length_take] at hend
  unfold maxEmbedsPerMessage at hend ⊢
  omega

/-- What Discord demands of a message, and that it is about a prefix of the alerts. -/
structure WithinBudget (status : String) (alerts : List Alert) (m : DiscordMessage) : Prop where
  count : m.embeds.length ≤ 10
  total : m.runes ≤ 6000
  embeds : ∀ e ∈ m.embeds, EmbedFits e
  first : ∃ n, List.Forall₂ (Renders net status) (alerts.take n) m.embeds

theorem message_within_budget (p : Option AlertmanagerPayload) :
    WithinBudget net (p.elim "" payloadStatus) (p.elim [] AlertmanagerPayload.alerts) (buildMessage net p) := by
  cases p with
  | none =>
    have hzero : (buildMessage net none).runes = 0 := rfl
    exact ⟨Nat.zero_le _, by rw [hzero]; decide, fun e he => absurd he List.not_mem_nil, 0, .nil⟩
  | some p =>
    obtain ⟨n, hn, hrenders, htotal, hfits, -⟩ := buildMessage_spec net p
    refine ⟨?_, htotal, hfits, n, hrenders⟩
    rw [← hrenders.length_eq, List.length_take]
    omega

end Rendering

end Chinwag.Alerts
