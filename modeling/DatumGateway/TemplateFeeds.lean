import DatumGateway.TemplatePulls

namespace DatumGateway.TemplateFeeds

open DatumGateway.KeyedMaps
open DatumGateway.NotifyPatches (Value)
open DatumGateway.RpcResponses
open DatumGateway.TemplatePulls
open DatumGateway.TransitionSystem
open DatumGateway.WatchViews

def fetchedOf : FetchResult → Option FetchedTemplate
  | .ok fetched => some fetched
  | _ => none

/-- The id that the next call waits on; an error leaves none. -/
def idAfter (result : FetchResult) : Option String :=
  (fetchedOf result).bind FetchedTemplate.longPollId

/-- The ids of all calls, the last of which is perhaps still to be made. -/
def ids (results : List FetchResult) : List (Option String) :=
  none :: results.map idAfter

def idsAsked (s : PullState) : List (Option String) :=
  match s.phase with
  | .waiting => ids s.results
  | _ => (ids s.results).dropLast

def unsent : PullPhase → List FetchedTemplate
  | .exited fetched => [fetched]
  | _ => []

structure Pulled (s : PullState) : Prop where
  fetches : s.fetches = (idsAsked s).map (fetchOnce s.rules)
  next : (ids s.results).getLast? = some s.longPollId
  sent : s.sent ++ unsent s.phase = s.results.filterMap fetchedOf
  views : ∀ receiver view, s.receivers.lookup receiver = some view → view.Follows s.sent
  exited : ∀ fetched, s.phase = .exited fetched → s.receivers.entries.isEmpty = true

section Steps

variable {s t : PullState}

theorem ids_concat (results : List FetchResult) (result : FetchResult) :
    ids (results ++ [result]) = ids results ++ [idAfter result] := by
  rw [ids, List.map_append]
  rfl

theorem idsAsked_of_not_waiting (hphase : s.phase ≠ .waiting) :
    idsAsked s = (ids s.results).dropLast := by
  rw [idsAsked]
  split
  · rename_i hwaiting
    exact absurd hwaiting hphase
  · rfl

theorem ids_eq_dropLast_append (hnext : (ids s.results).getLast? = some s.longPollId) :
    (ids s.results).dropLast ++ [s.longPollId] = ids s.results := by
  have hne : ids s.results ≠ [] := List.cons_ne_nil _ _
  rw [List.getLast?_eq_some_getLast hne] at hnext
  rw [← Option.some.inj hnext]
  exact List.dropLast_concat_getLast hne

theorem Pulled.fetches_of_answer (hpulled : Pulled s) (hwaiting : s.phase = .waiting)
    {result : FetchResult} (hphase : t.phase ≠ .waiting) (hrules : t.rules = s.rules)
    (hresults : t.results = s.results ++ [result]) (hfetches : t.fetches = s.fetches) :
    t.fetches = (idsAsked t).map (fetchOnce t.rules) := by
  have hasked : idsAsked s = ids s.results := by rw [idsAsked, hwaiting]
  rw [idsAsked_of_not_waiting hphase, hresults, ids_concat, List.dropLast_concat, hrules,
    hfetches, hpulled.fetches, hasked]

theorem Pulled.answer (hpulled : Pulled s) (hwaiting : s.phase = .waiting)
    (result : FetchResult) : Pulled (handleResult s result) := by
  have hsent := hpulled.sent
  have hnone : unsent s.phase = [] := by rw [hwaiting]; rfl
  rw [hnone, List.append_nil] at hsent
  have hnext : ∀ r : FetchResult, (ids (s.results ++ [r])).getLast? = some (idAfter r) := by
    intro r
    rw [ids_concat, List.getLast?_concat]
  have hfailed : ∀ e : FetchResult, fetchedOf e = none → Pulled { s with
      longPollId := none, results := s.results ++ [e], phase := .backingOff } := by
    intro e he
    refine ⟨hpulled.fetches_of_answer hwaiting (fun h => nomatch h) rfl rfl rfl, ?_, ?_,
      hpulled.views, fun _ h => nomatch h⟩
    · rw [hnext, idAfter, he]
      rfl
    · rw [List.filterMap_append, List.filterMap_cons_none he, ← hsent]
      rfl
  cases result with
  | ok fetched =>
      have hfetched : (s.results ++ [FetchResult.ok fetched]).filterMap fetchedOf =
          s.sent ++ [fetched] := by
        rw [List.filterMap_append, ← hsent]
        rfl
      simp only [handleResult]
      split
      · rename_i hempty
        exact ⟨hpulled.fetches_of_answer hwaiting (fun h => nomatch h) rfl rfl rfl, hnext _,
          hfetched.symm, hpulled.views, fun _ _ => hempty⟩
      · refine ⟨hpulled.fetches_of_answer hwaiting (fun h => nomatch h) rfl rfl rfl, hnext _, ?_,
          ?_, fun _ h => nomatch h⟩
        · rw [hfetched]
          exact List.append_nil _
        · exact fun receiver view hview => (hpulled.views receiver view hview).send fetched
  | rpcError => exact hfailed .rpcError rfl
  | deserializeError => exact hfailed .deserializeError rfl

theorem Pulled.withReceivers (hpulled : Pulled s) (receivers : KeyMap ℕ (View FetchedTemplate))
    (hviews : ∀ receiver view, receivers.lookup receiver = some view → view.Follows s.sent)
    (hexited : s.receivers.entries.isEmpty = true → receivers.entries.isEmpty = true) :
    Pulled { s with receivers } :=
  ⟨hpulled.fetches, hpulled.next, hpulled.sent, hviews,
    fun fetched hphase => hexited (hpulled.exited fetched hphase)⟩

theorem not_isEmpty_of_lookup {receivers : KeyMap ℕ (View FetchedTemplate)} {receiver : ℕ}
    {view : View FetchedTemplate} (hview : receivers.lookup receiver = some view) :
    receivers.entries.isEmpty = false := by
  have hmem := AList.mem_lookup_iff.mp hview
  rw [List.isEmpty_eq_false_iff]
  exact List.ne_nil_of_mem hmem

theorem Pulled.step {a : PullAction} (hpulled : Pulled s) (hstep : PullStep s a t) :
    Pulled t := by
  cases hstep with
  | fetch hphase =>
      have hfetches := hpulled.fetches
      have hsent := hpulled.sent
      rw [idsAsked_of_not_waiting (by rw [hphase]; exact fun h => nomatch h)] at hfetches
      rw [hphase] at hsent
      refine ⟨?_, hpulled.next, hsent, hpulled.views, fun _ h => nomatch h⟩
      dsimp only [idsAsked]
      rw [hfetches, ← ids_eq_dropLast_append hpulled.next, List.map_append, List.map_singleton,
        ids_eq_dropLast_append hpulled.next]
  | answer result hphase => exact hpulled.answer hphase _
  | backoffOver hphase =>
      have hfetches := hpulled.fetches
      have hsent := hpulled.sent
      rw [idsAsked_of_not_waiting (by rw [hphase]; exact fun h => nomatch h)] at hfetches
      rw [hphase] at hsent
      exact ⟨hfetches, hpulled.next, hsent, hpulled.views, fun _ h => nomatch h⟩
  | clone receiver fresh view hview =>
      refine hpulled.withReceivers _ ?_ ?_
      · intro other view' hview'
        rcases lookup_insert_eq_some_iff.mp hview' with ⟨-, rfl⟩ | ⟨-, hview'⟩
        · exact (hpulled.views receiver view hview).clone
        · exact hpulled.views other view' hview'
      · intro hempty
        rw [not_isEmpty_of_lookup hview] at hempty
        cases hempty
  | drop receiver view hview =>
      refine hpulled.withReceivers _ ?_ ?_
      · exact fun other view' hview' =>
          hpulled.views other view' (lookup_erase_eq_some_iff.mp hview').2
      · intro hempty
        rw [not_isEmpty_of_lookup hview] at hempty
        cases hempty
  | changed receiver view next hview hnext =>
      refine hpulled.withReceivers _ ?_ ?_
      · intro other view' hview'
        rcases lookup_insert_eq_some_iff.mp hview' with ⟨-, rfl⟩ | ⟨-, hview'⟩
        · exact (hpulled.views receiver view hview).take hnext
        · exact hpulled.views other view' hview'
      · intro hempty
        rw [not_isEmpty_of_lookup hview] at hempty
        cases hempty

end Steps

/-- `TemplatePuller::new`, with the receiver that it returns. -/
def newPuller (rules : List String) : PullState where
  rules
  receivers := (∅ : KeyMap ℕ (View FetchedTemplate)).insert 0 { start := 0, seen := 0 }

theorem pulled_newPuller (rules : List String) : Pulled (newPuller rules) where
  fetches := rfl
  next := rfl
  sent := rfl
  views := by
    intro receiver view hview
    rcases lookup_insert_eq_some_iff.mp hview with ⟨-, rfl⟩ | ⟨-, hview⟩
    · exact ⟨Nat.le_refl _, Nat.le_refl _, List.Sublist.refl _, fun h => absurd h (lt_irrefl _)⟩
    · cases hview
  exited := fun _ h => nomatch h

theorem rules_step {s t : PullState} {a : PullAction} (hstep : PullStep s a t) :
    t.rules = s.rules := by
  cases hstep with
  | answer result hphase =>
      rw [handleResult.eq_def]
      split
      · dsimp only
        split_ifs <;> rfl
      · rfl
  | fetch | backoffOver | clone | drop | changed => rfl

def PulledUnder (rules : List String) (s : PullState) : Prop :=
  Pulled s ∧ s.rules = rules

/-- Each call waits on the id of the template that the last one brought, for 75 seconds, or on
none if it failed or brought none; the templates go to the channel as they come until nobody
receives them; and each receiver takes some of them in their order, and has the last once it has
seen all. -/
theorem templates_pulled (rules : List String) (t : PullState)
    (hreachable : Reachable pullStep (newPuller rules) t) :
    (∀ (i : ℕ) fetch, t.fetches[i]? = some fetch →
      ∃ id, (ids t.results)[i]? = some id ∧ fetch.params = fetchRequest rules id ∧
        fetch.perCallTimeout = id.map fun _ => 75) ∧
    t.sent ++ unsent t.phase = t.results.filterMap fetchedOf ∧
    (∀ fetched, t.phase = .exited fetched → ∀ receiver, t.receivers.lookup receiver = none) ∧
    ∀ receiver view, t.receivers.lookup receiver = some view → view.taken.Sublist t.sent ∧
      (view.take t.sent = none → view.start < t.sent.length →
        view.taken.getLast? = t.sent.getLast?) := by
  have hend : PulledUnder rules t := by
    apply Reachable.invariant hreachable
    · exact ⟨pulled_newPuller rules, rfl⟩
    · rintro s a t ⟨hpulled, hrules⟩ hstep
      have hcases := pullStep_cases hstep
      exact ⟨hpulled.step hcases, (rules_step hcases).trans hrules⟩
  obtain ⟨hpulled, hrules⟩ := hend
  refine ⟨?_, hpulled.sent, ?_, ?_⟩
  · intro i fetch hfetch
    rw [hpulled.fetches, List.getElem?_map, Option.map_eq_some_iff] at hfetch
    obtain ⟨id, hid, rfl⟩ := hfetch
    refine ⟨id, ?_, by rw [hrules]; rfl, rfl⟩
    rw [idsAsked] at hid
    split at hid
    · exact hid
    · rw [List.getElem?_dropLast] at hid
      exact (Option.ite_none_right_eq_some.mp hid).2
  · intro fetched hphase receiver
    cases hview : t.receivers.lookup receiver with
    | none => rfl
    | some view =>
        have hempty := hpulled.exited fetched hphase
        rw [not_isEmpty_of_lookup hview] at hempty
        cases hempty
  · intro receiver view hview
    have hfollows := hpulled.views receiver view hview
    refine ⟨?_, fun hnothing hstart => hfollows.upToDate hstart hnothing⟩
    exact hfollows.inOrder.trans ((List.drop_sublist _ _).trans (List.take_sublist _ _))

/-- The least that a template holds. -/
def plainReply (longPollId : String) : Value :=
  .object [("version", .number "536870912"), ("previousblockhash", .string "00"),
    ("bits", .string "1d00ffff"), ("height", .number "1"), ("coinbasevalue", .number "5000000000"),
    ("curtime", .number "0"), ("mintime", .number "0"), ("sizelimit", .number "4000000"),
    ("weightlimit", .number "4000000"), ("sigoplimit", .number "80000"),
    ("longpollid", .string longPollId)]

/-- The same fields, up to the id, in an array. -/
def listedReply (longPollId : String) : Value :=
  .array [.number "536870912", .string "00", .string "1d00ffff", .number "1",
    .number "5000000000", .number "0", .number "0", .number "4000000", .number "4000000",
    .number "80000", .null, .array [], .string longPollId]

theorem templates_pulled_after_error :
    ∃ t view, Reachable pullStep (newPuller ["segwit"]) t ∧
      t.receivers.lookup 0 = some view ∧
      (t.sent.map FetchedTemplate.longPollId == [some "a", some "b"] && view.taken.length == 1 &&
        t.fetches.map Fetch.perCallTimeout == [none, none, some 75]) = true ∧
      view.taken.getLast? = t.sent.getLast? := by
  obtain ⟨t, hreachable, ht⟩ := exists_reachable_of_runActions pullStep (newPuller ["segwit"])
    [.fetch, .answer (.error .http), .backoffOver, .fetch, .answer (.ok (plainReply "a")), .fetch,
      .answer (.ok (listedReply "b")), .clone 0 1, .changed 0]
    (fun t => (t.receivers.lookup 0).any fun view =>
      t.sent.map FetchedTemplate.longPollId == [some "a", some "b"] && view.taken.length == 1 &&
        t.fetches.map Fetch.perCallTimeout == [none, none, some 75] &&
        (view.take t.sent).isNone && decide (view.start < t.sent.length))
    (by decide +kernel)
  obtain ⟨view, hview, hchecks⟩ := (Option.any_eq_true _ _).mp ht
  rw [Bool.and_eq_true, Bool.and_eq_true, Option.isNone_iff_eq_none, decide_eq_true_eq] at hchecks
  obtain ⟨⟨hseen, hnothing⟩, hstart⟩ := hchecks
  obtain ⟨-, -, -, hviews⟩ := templates_pulled _ t hreachable
  exact ⟨t, view, hreachable, hview, hseen, (hviews 0 view hview).2 hnothing hstart⟩

end DatumGateway.TemplateFeeds
