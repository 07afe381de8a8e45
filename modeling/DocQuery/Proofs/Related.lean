import Mathlib.Data.List.Forall2

/-!
# Lists related one by one

Facts about two lists of the same length whose entries are related pairwise.
-/

namespace DocQuery.Related

variable {α β γ : Type}

theorem exists_of_mem {Related : α → β → Prop} {items : List α} {images : List β}
    (related : List.Forall₂ Related items images) {item : α} (member : item ∈ items) :
    ∃ image ∈ images, Related item image := by
  induction related with
  | nil =>
      cases member
  | cons first _ inductionHypothesis =>
      rcases List.mem_cons.mp member with rfl | later
      · exact ⟨_, List.mem_cons_self, first⟩
      · obtain ⟨image, imageMember, itemRelated⟩ := inductionHypothesis later
        exact ⟨image, List.mem_cons_of_mem _ imageMember, itemRelated⟩

theorem trans {First : α → β → Prop} {Second : β → γ → Prop}
    {items : List α} {middle : List β} {images : List γ}
    (first : List.Forall₂ First items middle) (second : List.Forall₂ Second middle images) :
    List.Forall₂ (fun item image => ∃ between, First item between ∧ Second between image)
      items images := by
  induction first generalizing images with
  | nil =>
      cases second
      exact .nil
  | cons related _ inductionHypothesis =>
      cases second with
      | cons further others =>
          exact .cons ⟨_, related, further⟩ (inductionHypothesis others)

theorem map_eq_map {left : α → γ} {right : β → γ} {items : List α} {images : List β}
    (related : List.Forall₂ (fun item image => left item = right image) items images) :
    items.map left = images.map right := by
  rwa [← List.forall₂_eq_eq_eq, List.forall₂_map_left_iff, List.forall₂_map_right_iff]

/-- Entries whose images are kept or left out; together they are all entries. -/
theorem exists_partition {Related : α → β → Prop} {items : List α} {images : List β}
    (related : List.Forall₂ Related items images) (keep : β → Bool) :
    ∃ kept others,
      List.Forall₂ Related kept (images.filter keep) ∧
      List.Forall₂ Related others (images.filter fun image => !keep image) ∧
      (kept ++ others).Perm items := by
  induction related with
  | nil =>
      exact ⟨[], [], .nil, .nil, .nil⟩
  | @cons item image _ _ first _ inductionHypothesis =>
      obtain ⟨kept, others, keptRelated, othersRelated, together⟩ := inductionHypothesis
      by_cases keeps : keep image = true
      · refine ⟨item :: kept, others, ?_, ?_, together.cons item⟩
        · simpa [keeps] using List.Forall₂.cons first keptRelated
        · simpa [keeps] using othersRelated
      · refine ⟨kept, item :: others, ?_, ?_, List.perm_middle.trans (together.cons item)⟩
        · simpa [keeps] using keptRelated
        · simpa [keeps] using List.Forall₂.cons first othersRelated

end DocQuery.Related
