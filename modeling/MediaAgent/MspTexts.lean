import Mathlib.Data.List.Forall2
import MediaAgent.Library.Utf8
import MediaAgent.SeiInject

/-!
# The texts of the MSP payload

The protocol document says that the class name of a box and the text of an OSD item are UTF-8.
`appendMspBboxItem` and `appendMspTextOsdItem` cut them at a byte, so that the size of the item
fits one byte.
-/

namespace MediaAgent
open Utf8

/-- The text of an item, where it has one. -/
def MspItemPayload.text : MspItemPayload → Option Bytes
  | .bbox data => some data.type
  | .textOsd data => some data.text
  | .unknown _ => none

/-- The strings whose encodings the items carry, each with the number of bytes that fit. -/
def SeiMessageContext.fullTexts (c : SeiMessageContext) : List (Bytes × Nat) :=
  (c.bboxItems.map (fun o => (detectionTypeToUtf8 o, 237)) ++
    c.textOsdItems.map (fun t : SeiTextOsdItem => (t.text, 235))).take 255

structure SeiMessageContext.ValidTexts (c : SeiMessageContext) : Prop where
  className : ∀ o ∈ c.bboxItems, Valid o.className
  text : ∀ t ∈ c.textOsdItems, Valid t.text

/-- The payload is read back, and the text of each item is made of the first characters of its
string. -/
def WholeTexts (q : Quantizers) (c : SeiMessageContext) : Prop :=
  ∃ m, mspUserData.run (buildMspV1UserDataPayload q c) = some (m, []) ∧
    List.Forall₂ (fun item full => ∃ text, item.payload.text = some text ∧ Valid text ∧
      WholePrefix text full.1) m.items c.fullTexts

lemma valid_detectionTypeToUtf8 {object : DetectionObject} (h : Valid object.className) :
    Valid (detectionTypeToUtf8 object) := by
  by_cases hempty : object.className.isEmpty = true
  · rw [detectionTypeToUtf8, if_pos hempty]
    exact ⟨['u', 'n', 'k', 'n', 'o', 'w', 'n'], by decide⟩
  · rwa [detectionTypeToUtf8, if_neg hempty]

lemma SeiMessageContext.ValidTexts.fullTexts {c : SeiMessageContext} (h : c.ValidTexts)
    {full : Bytes × Nat} (hfull : full ∈ c.fullTexts) : Valid full.1 := by
  rcases List.mem_append.mp (List.mem_of_mem_take hfull) with hb | ht
  · obtain ⟨o, ho, rfl⟩ := List.mem_map.mp hb
    exact valid_detectionTypeToUtf8 (h.className o ho)
  · obtain ⟨t, hmem, rfl⟩ := List.mem_map.mp ht
    exact h.text t hmem

/-- The text of a drawn item is its string, cut at the number of bytes that fit. -/
lemma map_text_drawnItems (q : Quantizers) (c : SeiMessageContext) :
    ((drawnItems q c).map Prod.snd).map (fun i => i.payload.text) =
      c.fullTexts.map (fun full => some (full.1.take full.2)) := by
  rw [drawnItems, SeiMessageContext.fullTexts]
  simp only [List.map_take, List.map_append, List.map_map]
  rfl

lemma forall₂_of_map_eq {α β γ : Type} {f : α → γ} {g : β → γ} {as : List α} {bs : List β}
    (h : as.map f = bs.map g) : List.Forall₂ (fun a b => f a = g b) as bs := by
  rwa [← List.forall₂_eq_eq_eq, List.forall₂_map_left_iff, List.forall₂_map_right_iff] at h

/-- Where the left elements are determined by the right ones, only the right ones matter. -/
lemma forall₂_iff_forall_mem {α β : Type} {R P : α → β → Prop} {Q : β → Prop} {as : List α}
    {bs : List β} (h : List.Forall₂ R as bs) (hiff : ∀ a, ∀ b ∈ bs, R a b → (P a b ↔ Q b)) :
    List.Forall₂ P as bs ↔ ∀ b ∈ bs, Q b := by
  induction h with
  | nil => simp
  | @cons a b as bs hab _ ih =>
    have htail := ih fun a' b' hb' => hiff a' b' (List.mem_cons_of_mem b hb')
    rw [List.forall₂_cons, List.forall_mem_cons, hiff a b List.mem_cons_self hab, htail]

lemma wholeTexts_iff_forall (q : Quantizers) (c : SeiMessageContext) :
    WholeTexts q c ↔ ∀ full ∈ c.fullTexts, WholePrefix (full.1.take full.2) full.1 := by
  have hrun := mspUserData_run q c
  have htexts := forall₂_of_map_eq (map_text_drawnItems q c)
  rw [← forall₂_iff_forall_mem htexts (P := fun item full => ∃ text,
    item.payload.text = some text ∧ Valid text ∧ WholePrefix text full.1)]
  · constructor
    · rintro ⟨m, hm, hwhole⟩
      obtain ⟨rfl, -⟩ := Prod.mk.inj (Option.some.inj (hm.symm.trans hrun))
      exact hwhole
    · intro hwhole
      exact ⟨_, hrun, hwhole⟩
  · intro item full _ htext
    rw [htext]
    constructor
    · rintro ⟨text, hsome, -, hwhole⟩
      rwa [Option.some.inj hsome]
    · intro hwhole
      exact ⟨_, rfl, hwhole.valid, hwhole⟩

/-- The texts of a payload are made of whole characters exactly if each string that an item
carries ends within its limit, or has the start of a character right behind it. -/
theorem wholeTexts_iff (q : Quantizers) (c : SeiMessageContext) (h : c.ValidTexts) :
    WholeTexts q c ↔ ∀ full ∈ c.fullTexts, Boundary full.1 full.2 := by
  rw [wholeTexts_iff_forall]
  refine forall₂_congr fun full hfull => ?_
  exact wholePrefix_take_iff (h.fullTexts hfull)

/-- A box within its limit, and a text of 241 bytes that is cut between two characters: one byte and then eighty times
three, of which 78 fit. -/
def cutBetweenContext : SeiMessageContext where
  bboxItems := [{ className := encode ['c', 'a', 'r'] }]
  textOsdItems := [{ text := encode ('!' :: List.replicate 80 '告') }]

lemma cutBetweenContext_validTexts : cutBetweenContext.ValidTexts where
  className := by
    intro o ho
    obtain rfl := List.mem_singleton.mp ho
    exact valid_encode _
  text := by
    intro t ht
    obtain rfl := List.mem_singleton.mp ht
    exact valid_encode _

theorem wholeTexts_cutBetween : WholeTexts zeroQuantizers cutBetweenContext :=
  (wholeTexts_iff zeroQuantizers cutBetweenContext cutBetweenContext_validTexts).mpr (by decide +kernel)

/-- Eighty characters of three bytes each: the limit falls inside the 79th. -/
def longTextContext : SeiMessageContext where
  textOsdItems := [{ text := encode (List.replicate 80 '告') }]

lemma longTextContext_validTexts : longTextContext.ValidTexts where
  className := by simp [longTextContext]
  text := by
    intro t ht
    obtain rfl := List.mem_singleton.mp ht
    exact valid_encode _

theorem not_wholeTexts_longText :
    ¬ ∀ q c, SeiMessageContext.ValidTexts c → WholeTexts q c := by
  intro h
  have hwhole := (wholeTexts_iff_forall _ _).mp
    (h zeroQuantizers longTextContext longTextContext_validTexts)
  have hcut := hwhole (encode (List.replicate 80 '告'), 235) List.mem_cons_self
  rw [wholePrefix_take_iff (valid_encode _)] at hcut
  revert hcut
  decide +kernel

end MediaAgent
