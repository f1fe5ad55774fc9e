import Mathlib.Data.Set.Basic
import Mathlib.Logic.Function.Basic

/-!
A table, and the copy that another party keeps of it: the owner tells what is new and what
has changed, the follower asks for entries to be used or dropped, and the messages of both
may be under way for any time.
-/

namespace DatumGateway.TableReplicas

variable {κ ν μ τ : Type*}

/-- What a message makes of the entry under a key.  Only a message that opens a key makes an entry
where there is none, and no other one takes an entry away or changes its kind. -/
structure Updates (κ ν μ τ : Type*) where
  hear : μ → κ → Option ν → Option ν
  Opens : μ → κ → Prop
  kind : ν → τ
  hear_none : ∀ {msg key}, ¬ Opens msg key → hear msg key none = none
  hear_some : ∀ {msg key} (v : ν), ¬ Opens msg key →
    ∃ w, hear msg key (some v) = some w ∧ kind w = kind v

inductive Request (κ τ : Type*) where
  | drop (key : κ)
  /-- Something that the owner only does for an entry of such a kind. -/
  | use (key : κ) (needs : Set τ)
  | other

/-- Both parties, with what is under way between them and all keys that have been opened. -/
structure Replicas (κ ν μ τ : Type*) where
  owner : κ → Option ν
  copy : κ → Option ν
  told : List μ
  asked : List (Request κ τ)
  opened : Set κ

namespace Updates

variable (U : Updates κ ν μ τ)

def hearAll (msgs : List μ) (key : κ) (entry : Option ν) : Option ν :=
  msgs.foldl (fun entry msg => U.hear msg key entry) entry

@[simp] theorem hearAll_nil (key : κ) (entry : Option ν) : U.hearAll [] key entry = entry := rfl

@[simp] theorem hearAll_cons (msg : μ) (msgs : List μ) (key : κ) (entry : Option ν) :
    U.hearAll (msg :: msgs) key entry = U.hearAll msgs key (U.hear msg key entry) := rfl

@[simp] theorem hearAll_append (msgs msgs' : List μ) (key : κ) (entry : Option ν) :
    U.hearAll (msgs ++ msgs') key entry = U.hearAll msgs' key (U.hearAll msgs key entry) :=
  List.foldl_append

def Unopened (msgs : List μ) (key : κ) : Prop :=
  ∀ msg ∈ msgs, ¬ U.Opens msg key

variable {U} {msgs : List μ} {key : κ}

theorem hearAll_none (hunopened : U.Unopened msgs key) : U.hearAll msgs key none = none := by
  induction msgs with
  | nil => rfl
  | cons msg msgs ih =>
      obtain ⟨hmsg, hmsgs⟩ := List.forall_mem_cons.mp hunopened
      rw [hearAll_cons, U.hear_none hmsg]
      exact ih hmsgs

theorem hearAll_some (hunopened : U.Unopened msgs key) (v : ν) :
    ∃ w, U.hearAll msgs key (some v) = some w ∧ U.kind w = U.kind v := by
  induction msgs generalizing v with
  | nil => exact ⟨v, rfl, rfl⟩
  | cons msg msgs ih =>
      obtain ⟨hmsg, hmsgs⟩ := List.forall_mem_cons.mp hunopened
      obtain ⟨w, hw, hkind⟩ := U.hear_some v hmsg
      obtain ⟨w', hw', hkind'⟩ := ih hmsgs w
      refine ⟨w', ?_, hkind'.trans hkind⟩
      rw [hearAll_cons, hw, hw']

end Updates

variable (U : Updates κ ν μ τ)

/-- The copy is that of the owner once it has heard all that is under way, but for the entries that
it has asked to be dropped; and what it asks for is there as long as it is needed. -/
structure Agrees (r : Replicas κ ν μ τ) : Prop where
  entries : ∀ key, .drop key ∉ r.asked → U.hearAll r.told key (r.copy key) = r.owner key
  dropped : ∀ key, .drop key ∈ r.asked → r.copy key = none ∧ U.Unopened r.told key
  opensOnce : r.told.Pairwise fun msg later => ∀ key, U.Opens msg key → ¬ U.Opens later key
  unheard : ∀ key, r.copy key ≠ none → U.Unopened r.told key
  dropsLast : r.asked.Pairwise fun request later =>
    ∀ key needs, request = .drop key → later ≠ .use key needs
  uses : ∀ key needs, .use key needs ∈ r.asked → ∃ v, r.owner key = some v ∧ U.kind v ∈ needs
  opened : ∀ key ∉ r.opened, r.owner key = none ∧ r.copy key = none ∧ U.Unopened r.told key ∧
    .drop key ∉ r.asked

variable {U} {r : Replicas κ ν μ τ}

namespace Agrees

/-- The owner opens keys that were never open, changes entries, and tells. -/
theorem tell (h : Agrees U r) {owner : κ → Option ν} {msgs : List μ} {opened : Set κ}
    (howner : ∀ key, U.hearAll msgs key (r.owner key) = owner key) (hgrows : r.opened ⊆ opened)
    (hopens : ∀ msg ∈ msgs, ∀ key, U.Opens msg key → key ∉ r.opened ∧ key ∈ opened)
    (honce : msgs.Pairwise fun msg later => ∀ key, U.Opens msg key → ¬ U.Opens later key) :
    Agrees U { r with owner, told := r.told ++ msgs, opened } := by
  have hknown : ∀ key ∈ r.opened, U.Unopened msgs key :=
    fun key hkey msg hmsg hopen => (hopens msg hmsg key hopen).1 hkey
  have hopened : ∀ {key}, ¬ (r.owner key = none ∧ r.copy key = none ∧ U.Unopened r.told key ∧
      .drop key ∉ r.asked) → key ∈ r.opened :=
    fun hnot => not_not.mp fun hkey => hnot (h.opened _ hkey)
  refine
    { entries := fun key hasked => ?_
      dropped := fun key hasked => ?_
      opensOnce := ?_
      unheard := fun key hcopy => ?_
      dropsLast := h.dropsLast
      uses := fun key needs hasked => ?_
      opened := fun key hkey => ?_ }
  · rw [Updates.hearAll_append, h.entries key hasked, howner]
  · obtain ⟨hcopy, htold⟩ := h.dropped key hasked
    exact ⟨hcopy, List.forall_mem_append.mpr
      ⟨htold, hknown key (hopened fun hnone => hnone.2.2.2 hasked)⟩⟩
  · refine List.pairwise_append.mpr ⟨h.opensOnce, honce, fun msg hmsg later hlater key hopen => ?_⟩
    exact hknown key (hopened fun hnone => hnone.2.2.1 msg hmsg hopen) later hlater
  · exact List.forall_mem_append.mpr
      ⟨h.unheard key hcopy, hknown key (hopened fun hnone => hcopy hnone.2.1)⟩
  · obtain ⟨v, hv, hneeds⟩ := h.uses key needs hasked
    have hkey : key ∈ r.opened := hopened fun hnone => by simp [hv] at hnone
    obtain ⟨w, hw, hkind⟩ := Updates.hearAll_some (hknown key hkey) v
    refine ⟨w, (howner key).symm.trans (by rw [hv, hw]), ?_⟩
    rw [hkind]
    exact hneeds
  · obtain ⟨hown, hcopy, htold, hasked⟩ := h.opened key fun hmem => hkey (hgrows hmem)
    have hmsgs : U.Unopened msgs key := fun msg hmsg hopen => hkey (hopens msg hmsg key hopen).2
    refine ⟨(howner key).symm.trans ?_, hcopy, List.forall_mem_append.mpr ⟨htold, hmsgs⟩, hasked⟩
    rw [hown]
    exact Updates.hearAll_none hmsgs

theorem deliver (h : Agrees U r) {msg : μ} {rest : List μ} (htold : r.told = msg :: rest) :
    Agrees U { r with copy := fun key => U.hear msg key (r.copy key), told := rest } := by
  have honce := h.opensOnce
  rw [htold, List.pairwise_cons] at honce
  have hsplit : ∀ {key}, U.Unopened r.told key → ¬ U.Opens msg key ∧ U.Unopened rest key := by
    intro key hunopened
    rw [htold] at hunopened
    exact List.forall_mem_cons.mp hunopened
  have hsilent : ∀ {key}, ¬ U.Opens msg key → r.copy key = none →
      U.hear msg key (r.copy key) = none := by
    intro key hmsg hcopy
    rw [hcopy]
    exact U.hear_none hmsg
  refine
    { entries := fun key hasked => ?_
      dropped := fun key hasked => ?_
      opensOnce := honce.2
      unheard := fun key hcopy => ?_
      dropsLast := h.dropsLast
      uses := h.uses
      opened := fun key hkey => ?_ }
  · rw [← h.entries key hasked, htold, Updates.hearAll_cons]
  · obtain ⟨hcopy, hunopened⟩ := h.dropped key hasked
    obtain ⟨hmsg, hrest⟩ := hsplit hunopened
    exact ⟨hsilent hmsg hcopy, hrest⟩
  · by_cases hmsg : U.Opens msg key
    · exact fun later hlater => honce.1 later hlater key hmsg
    · exact (hsplit (h.unheard key fun hnone => hcopy (hsilent hmsg hnone))).2
  · obtain ⟨hown, hcopy, hunopened, hasked⟩ := h.opened key hkey
    obtain ⟨hmsg, hrest⟩ := hsplit hunopened
    exact ⟨hown, hsilent hmsg hcopy, hrest, hasked⟩

theorem notMem_drop (h : Agrees U r) {key : κ} (hcopy : r.copy key ≠ none) :
    .drop key ∉ r.asked :=
  fun hasked => hcopy (h.dropped key hasked).1

theorem known (h : Agrees U r) {key : κ} {v : ν} (hcopy : r.copy key = some v) :
    ∃ w, r.owner key = some w ∧ U.kind w = U.kind v := by
  have hknown : r.copy key ≠ none := by simp [hcopy]
  rw [← h.entries key (h.notMem_drop hknown), hcopy]
  exact Updates.hearAll_some (h.unheard key hknown) v

theorem askUse (h : Agrees U r) {key : κ} {v : ν} (hcopy : r.copy key = some v) {needs : Set τ}
    (hneeds : U.kind v ∈ needs) : Agrees U { r with asked := r.asked ++ [.use key needs] } := by
  have hkept : .drop key ∉ r.asked := h.notMem_drop (by simp [hcopy])
  have hdrop : ∀ {key'}, .drop key' ∈ r.asked ++ [.use key needs] ↔ .drop key' ∈ r.asked := by
    simp
  refine
    { entries := fun key' hasked => h.entries key' (hdrop.not.mp hasked)
      dropped := fun key' hasked => h.dropped key' (hdrop.mp hasked)
      opensOnce := h.opensOnce
      unheard := h.unheard
      dropsLast := ?_
      uses := fun key' needs' hasked => ?_
      opened := fun key' hkey => ?_ }
  · refine List.pairwise_append.mpr ⟨h.dropsLast, List.pairwise_singleton _ _, ?_⟩
    rintro request hrequest later hlater key' needs' rfl hsame
    obtain rfl := List.mem_singleton.mp hlater
    obtain ⟨rfl, -⟩ := Request.use.inj hsame
    exact hkept hrequest
  · rcases List.mem_append.mp hasked with hasked | hasked
    · exact h.uses key' needs' hasked
    · obtain ⟨rfl, rfl⟩ := Request.use.inj (List.mem_singleton.mp hasked)
      obtain ⟨w, hw, hkind⟩ := h.known hcopy
      rw [← hkind] at hneeds
      exact ⟨w, hw, hneeds⟩
  · obtain ⟨hown, hnone, hunopened, hasked⟩ := h.opened key' hkey
    exact ⟨hown, hnone, hunopened, hdrop.not.mpr hasked⟩

theorem askOther (h : Agrees U r) : Agrees U { r with asked := r.asked ++ [.other] } := by
  have hdrop : ∀ {key}, .drop key ∈ r.asked ++ [.other] ↔ .drop key ∈ r.asked := by simp
  refine
    { entries := fun key hasked => h.entries key (hdrop.not.mp hasked)
      dropped := fun key hasked => h.dropped key (hdrop.mp hasked)
      opensOnce := h.opensOnce
      unheard := h.unheard
      dropsLast := ?_
      uses := fun key needs hasked => h.uses key needs (by simpa using hasked)
      opened := fun key hkey => ?_ }
  · refine List.pairwise_append.mpr ⟨h.dropsLast, List.pairwise_singleton _ _, ?_⟩
    rintro request - later hlater key needs - rfl
    cases List.mem_singleton.mp hlater
  · obtain ⟨hown, hnone, hunopened, hasked⟩ := h.opened key hkey
    exact ⟨hown, hnone, hunopened, hdrop.not.mpr hasked⟩

theorem serve (h : Agrees U r) {request : Request κ τ} {rest : List (Request κ τ)}
    (hasked : r.asked = request :: rest) (hkeeps : ∀ key, request ≠ .drop key) :
    Agrees U { r with asked := rest } := by
  have hdrop : ∀ {key}, .drop key ∈ r.asked ↔ .drop key ∈ rest := by
    intro key
    rw [hasked, List.mem_cons, or_iff_right (hkeeps key).symm]
  refine
    { entries := fun key hrest => h.entries key (hdrop.not.mpr hrest)
      dropped := fun key hrest => h.dropped key (hdrop.mpr hrest)
      opensOnce := h.opensOnce
      unheard := h.unheard
      dropsLast := ?_
      uses := fun key needs hrest => h.uses key needs (hasked ▸ List.mem_cons_of_mem _ hrest)
      opened := fun key hkey => ?_ }
  · have hlast := h.dropsLast
    rw [hasked] at hlast
    exact (List.pairwise_cons.mp hlast).2
  · obtain ⟨hown, hnone, hunopened, hnot⟩ := h.opened key hkey
    exact ⟨hown, hnone, hunopened, hdrop.not.mp hnot⟩

variable [DecidableEq κ]

theorem askDrop (h : Agrees U r) {key : κ} (hcopy : r.copy key ≠ none) :
    Agrees U
      { r with copy := Function.update r.copy key none, asked := r.asked ++ [.drop key] } := by
  have hdrop : ∀ {key'}, .drop key' ∈ r.asked ++ [.drop key] ↔
      .drop key' ∈ r.asked ∨ key' = key := by simp
  have hupdate : ∀ {key'}, r.copy key' = none → Function.update r.copy key none key' = none := by
    intro key' hnone
    by_cases hkey : key' = key
    · rw [hkey, Function.update_self]
    · rw [Function.update_of_ne hkey, hnone]
  refine
    { entries := fun key' hasked => ?_
      dropped := fun key' hasked => ?_
      opensOnce := h.opensOnce
      unheard := fun key' hknown => h.unheard key' fun hnone => hknown (hupdate hnone)
      dropsLast := ?_
      uses := fun key' needs hasked => h.uses key' needs (by simpa using hasked)
      opened := fun key' hkey => ?_ }
  · obtain ⟨hkept, hkey⟩ := not_or.mp (hdrop.not.mp hasked)
    show U.hearAll r.told key' (Function.update r.copy key none key') = r.owner key'
    rw [Function.update_of_ne hkey]
    exact h.entries key' hkept
  · rcases hdrop.mp hasked with hasked | rfl
    · obtain ⟨hnone, hunopened⟩ := h.dropped key' hasked
      exact ⟨hupdate hnone, hunopened⟩
    · exact ⟨Function.update_self .., h.unheard key' hcopy⟩
  · refine List.pairwise_append.mpr ⟨h.dropsLast, List.pairwise_singleton _ _, ?_⟩
    rintro request - later hlater key' needs - rfl
    cases List.mem_singleton.mp hlater
  · obtain ⟨hown, hnone, hunopened, hasked⟩ := h.opened key' hkey
    refine ⟨hown, hupdate hnone, hunopened, hdrop.not.mpr (not_or.mpr ⟨hasked, ?_⟩)⟩
    rintro rfl
    exact hcopy hnone

theorem serveDrop (h : Agrees U r) {key : κ} {rest : List (Request κ τ)}
    (hasked : r.asked = .drop key :: rest) :
    Agrees U { r with owner := Function.update r.owner key none, asked := rest } := by
  have hrest : ∀ {request}, request ∈ rest → request ∈ r.asked := by
    intro request hrequest
    rw [hasked]
    exact List.mem_cons_of_mem _ hrequest
  have hlast := h.dropsLast
  rw [hasked, List.pairwise_cons] at hlast
  obtain ⟨hcopy, hunopened⟩ := h.dropped key (hasked ▸ List.mem_cons_self)
  refine
    { entries := fun key' hkept => ?_
      dropped := fun key' hkept => h.dropped key' (hrest hkept)
      opensOnce := h.opensOnce
      unheard := h.unheard
      dropsLast := hlast.2
      uses := fun key' needs hkept => ?_
      opened := fun key' hkey => ?_ }
  · show U.hearAll r.told key' (r.copy key') = Function.update r.owner key none key'
    by_cases hkey : key' = key
    · rw [hkey, Function.update_self, hcopy, Updates.hearAll_none hunopened]
    · rw [Function.update_of_ne hkey]
      refine h.entries key' ?_
      rw [hasked, List.mem_cons, not_or]
      exact ⟨fun hsame => hkey (Request.drop.inj hsame), hkept⟩
  · have hkey : key' ≠ key := by
      rintro rfl
      exact hlast.1 _ hkept key' needs rfl rfl
    show ∃ v, Function.update r.owner key none key' = some v ∧ U.kind v ∈ needs
    rw [Function.update_of_ne hkey]
    exact h.uses key' needs (hrest hkept)
  · obtain ⟨hown, hnone, hunopened', hnot⟩ := h.opened key' hkey
    refine ⟨?_, hnone, hunopened', fun hkept => hnot (hrest hkept)⟩
    show Function.update r.owner key none key' = none
    rw [Function.update_apply, hown, ite_self]

end Agrees

end DatumGateway.TableReplicas
