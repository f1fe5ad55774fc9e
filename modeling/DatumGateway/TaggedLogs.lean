import Mathlib.Data.List.Basic

/-!
Logs of items of several sources, and the items of one of them: what a source has
handed in comes out in its order, whatever the others do.
-/

namespace DatumGateway.TaggedLogs

variable {Tag Item : Type*} [DecidableEq Tag]

/-- The items of one source, in the order of the log. -/
def ofTag (tag : Tag) (log : List (Tag × Item)) : List Item :=
  (log.filter fun entry => entry.1 = tag).map Prod.snd

@[simp] theorem ofTag_nil (tag : Tag) : ofTag tag ([] : List (Tag × Item)) = [] := rfl

@[simp] theorem ofTag_append (tag : Tag) (log log' : List (Tag × Item)) :
    ofTag tag (log ++ log') = ofTag tag log ++ ofTag tag log' := by
  rw [ofTag, List.filter_append, List.map_append, ofTag, ofTag]

theorem ofTag_cons_self (tag : Tag) (item : Item) (log : List (Tag × Item)) :
    ofTag tag ((tag, item) :: log) = item :: ofTag tag log := by
  rw [ofTag, List.filter_cons_of_pos (by simp), List.map_cons, ofTag]

theorem ofTag_cons_of_ne {tag tag' : Tag} (hne : tag' ≠ tag) (item : Item)
    (log : List (Tag × Item)) : ofTag tag ((tag', item) :: log) = ofTag tag log := by
  rw [ofTag, List.filter_cons_of_neg (by simpa using hne), ofTag]

theorem ofTag_tagged_self (tag : Tag) (items : List Item) :
    ofTag tag (items.map (Prod.mk tag)) = items := by
  induction items with
  | nil => rfl
  | cons item items ih => rw [List.map_cons, ofTag_cons_self, ih]

theorem ofTag_tagged_of_ne {tag tag' : Tag} (hne : tag' ≠ tag) (items : List Item) :
    ofTag tag (items.map (Prod.mk tag')) = [] := by
  induction items with
  | nil => rfl
  | cons item items ih => rw [List.map_cons, ofTag_cons_of_ne hne, ih]

theorem ofTag_sublist (tag : Tag) {log log' : List (Tag × Item)} (hsub : log.Sublist log') :
    (ofTag tag log).Sublist (ofTag tag log') :=
  (hsub.filter _).map Prod.snd

/-- A selection of the items is a selection of the entries. -/
theorem exists_entries_of_sublist {items : List Item} {log : List (Tag × Item)}
    (hsub : items.Sublist (log.map Prod.snd)) :
    ∃ entries, entries.map Prod.snd = items ∧
      ∀ tag, (ofTag tag entries).Sublist (ofTag tag log) := by
  obtain ⟨entries, hentries, rfl⟩ := List.sublist_map_iff.mp hsub
  exact ⟨entries, rfl, fun tag => ofTag_sublist tag hentries⟩

/-- Of each source, what was taken in is what was given out, and then what is held. -/
def InOrder (taken given : List (Tag × Item)) (held : Tag → List Item) : Prop :=
  ∀ tag, ofTag tag taken = ofTag tag given ++ held tag

variable {taken given : List (Tag × Item)} {held held' : Tag → List Item}

theorem InOrder.held_congr (horder : InOrder taken given held)
    (hheld : ∀ tag, held' tag = held tag) : InOrder taken given held' := by
  intro tag
  rw [hheld, horder]

theorem InOrder.take (horder : InOrder taken given held) {tag : Tag} {items : List Item}
    (hself : held' tag = held tag ++ items) (hothers : ∀ tag' ≠ tag, held' tag' = held tag') :
    InOrder (taken ++ items.map (Prod.mk tag)) given held' := by
  intro tag'
  rw [ofTag_append, horder]
  by_cases htag : tag' = tag
  · subst htag
    rw [ofTag_tagged_self, hself, List.append_assoc]
  · rw [ofTag_tagged_of_ne (Ne.symm htag), hothers tag' htag, List.append_nil]

theorem InOrder.give (horder : InOrder taken given held) {tag : Tag} {items : List Item}
    (hself : held tag = items ++ held' tag) (hothers : ∀ tag' ≠ tag, held' tag' = held tag') :
    InOrder taken (given ++ items.map (Prod.mk tag)) held' := by
  intro tag'
  rw [ofTag_append, horder]
  by_cases htag : tag' = tag
  · subst htag
    rw [ofTag_tagged_self, hself, List.append_assoc]
  · rw [ofTag_tagged_of_ne (Ne.symm htag), hothers tag' htag, List.append_nil]

end DatumGateway.TaggedLogs
