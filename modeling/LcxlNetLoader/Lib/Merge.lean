import Mathlib.Tactic

/-!
# Adding what is missing

Entries are known by a key, and what is reported with other keys than theirs is added behind them,
each key once. What was there keeps its place, and everything reported is there in the end.
-/

namespace Merge

variable {α β κ : Type*} [DecidableEq κ] (key : α → κ) (reported : β → κ) (make : β → α)

/-- Each reported entry in turn is added if its key is not there by then. -/
def addMissing : List β → List α → List α
  | [], l => l
  | b :: bs, l =>
    addMissing bs (if l.any fun a => key a = reported b then l else l ++ [make b])

variable {key reported make} {l : List α} {bs : List β} {b : β}

theorem addMissing_cons_of_mem {a : α} (ha : a ∈ l) (h : key a = reported b) :
    addMissing key reported make (b :: bs) l = addMissing key reported make bs l := by
  rw [addMissing, if_pos (List.any_eq_true.2 ⟨a, ha, by simpa using h⟩)]

theorem addMissing_cons_of_notMem (h : ∀ a ∈ l, key a ≠ reported b) :
    addMissing key reported make (b :: bs) l
      = addMissing key reported make bs (l ++ [make b]) := by
  have hany : (l.any fun a => key a = reported b) = false := by simpa using h
  rw [addMissing, hany]
  rfl

/-- By cases on whether the key of what is reported next is there. -/
theorem mem_or_notMem (key : α → κ) (reported : β → κ) (l : List α) (b : β) :
    (∃ a ∈ l, key a = reported b) ∨ ∀ a ∈ l, key a ≠ reported b := by
  by_cases h : ∃ a ∈ l, key a = reported b
  · exact .inl h
  · exact .inr (by push Not at h; exact h)

theorem addMissing_eq_self : ∀ {bs : List β}, (∀ b ∈ bs, ∃ a ∈ l, key a = reported b) →
    addMissing key reported make bs l = l
  | [], _ => rfl
  | b :: bs, h => by
    rw [List.forall_mem_cons] at h
    obtain ⟨⟨a, ha, hb⟩, h⟩ := h
    rw [addMissing_cons_of_mem ha hb, addMissing_eq_self h]

/-- What is added is made of entries that are the first of those reported before and after them
with their keys. `seen` is what was reported already. -/
theorem addMissing_eq_append (key : α → κ) (reported : β → κ) : ∀ (bs seen : List β) (l : List α),
    (∀ b ∈ seen, ∃ a ∈ l, key a = reported b) → (∀ b, key (make b) = reported b) →
    ∃ new, addMissing key reported make bs l = l ++ new
      ∧ ∀ a ∈ new, ∃ b, a = make b
        ∧ ((seen ++ bs).find? fun c => reported c = reported b) = some b
  | [], _, l, _, _ => ⟨[], (List.append_nil l).symm, by simp⟩
  | b :: bs, seen, l, hs, hm => by
    have hsplit : seen ++ b :: bs = (seen ++ [b]) ++ bs := by simp
    rcases mem_or_notMem key reported l b with ⟨a, ha, hb⟩ | hb
    · rw [addMissing_cons_of_mem ha hb, hsplit]
      refine addMissing_eq_append key reported bs (seen ++ [b]) l (fun c hc => ?_) hm
      rcases List.mem_append.1 hc with hc | hc
      · exact hs c hc
      · exact ⟨a, ha, by rw [List.mem_singleton.1 hc, hb]⟩
    · have hs' : ∀ c ∈ seen ++ [b], ∃ a ∈ l ++ [make b], key a = reported c := by
        intro c hc
        rcases List.mem_append.1 hc with hc | hc
        · obtain ⟨a, ha, h⟩ := hs c hc
          exact ⟨a, List.mem_append_left _ ha, h⟩
        · exact ⟨make b, by simp, by rw [List.mem_singleton.1 hc, hm]⟩
      obtain ⟨new, hnew, hfirst⟩ :=
        addMissing_eq_append key reported bs (seen ++ [b]) (l ++ [make b]) hs' hm
      refine ⟨make b :: new, by rw [addMissing_cons_of_notMem hb, hnew]; simp, ?_⟩
      refine List.forall_mem_cons.2 ⟨⟨b, rfl, ?_⟩, by rwa [hsplit]⟩
      have hseen : ∀ c ∈ seen, ¬ (decide (reported c = reported b)) = true := by
        intro c hc h
        obtain ⟨a, ha, h'⟩ := hs c hc
        exact hb a ha (h'.trans (by simpa using h))
      rw [List.find?_append, List.find?_eq_none.2 hseen, List.find?_cons_of_pos (by simp)]
      rfl

theorem addMissing_covers : ∀ (bs : List β) (l : List α), (∀ b, key (make b) = reported b) →
    (∀ a ∈ l, a ∈ addMissing key reported make bs l)
      ∧ ∀ b ∈ bs, ∃ a ∈ addMissing key reported make bs l, key a = reported b
  | [], _, _ => ⟨fun _ h => h, by simp⟩
  | b :: bs, l, hm => by
    rcases mem_or_notMem key reported l b with ⟨a, ha, hb⟩ | hb
    · rw [addMissing_cons_of_mem ha hb]
      obtain ⟨h1, h2⟩ := addMissing_covers bs l hm
      exact ⟨h1, List.forall_mem_cons.2 ⟨⟨a, h1 a ha, hb⟩, h2⟩⟩
    · rw [addMissing_cons_of_notMem hb]
      obtain ⟨h1, h2⟩ := addMissing_covers bs (l ++ [make b]) hm
      exact ⟨fun a ha => h1 a (List.mem_append_left _ ha),
        List.forall_mem_cons.2 ⟨⟨make b, h1 _ (by simp), hm b⟩, h2⟩⟩

/-- No key comes twice, whatever is reported twice. -/
theorem nodup_addMissing : ∀ (bs : List β) {l : List α}, (∀ b, key (make b) = reported b) →
    (l.map key).Nodup → ((addMissing key reported make bs l).map key).Nodup
  | [], _, _, h => h
  | b :: bs, l, hm, h => by
    rcases mem_or_notMem key reported l b with ⟨a, ha, hb⟩ | hb
    · rw [addMissing_cons_of_mem ha hb]
      exact nodup_addMissing bs hm h
    · rw [addMissing_cons_of_notMem hb]
      refine nodup_addMissing bs hm ?_
      rw [List.map_append, List.map_singleton, hm]
      have hnew : reported b ∉ l.map key := fun hk => by
        obtain ⟨a, ha, h⟩ := List.mem_map.1 hk
        exact hb a ha h
      simpa using List.Nodup.concat hnew h

end Merge
