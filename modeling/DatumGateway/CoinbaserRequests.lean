import DatumGateway.UpstreamSession

/-!
The requests for a coinbaser that go out on each connection: never two, and one as soon
as the pool has configured the gateway and a template is there, unless the template comes
between the two looks that the handler of the configuration takes at it.
-/

namespace DatumGateway.CoinbaserRequests

open DatumGateway.AuthenticatedEvents
open DatumGateway.BlockTemplate
open DatumGateway.CommandDelivery (UpstreamCommand)
open DatumGateway.TransitionSystem
open DatumGateway.UpstreamMessages
open DatumGateway.UpstreamSession

/-- The command asks for the coinbaser of one of the templates. -/
def RequestsFor (templates : List Template) (command : UpstreamCommand) : Prop :=
  ∃ template ∈ templates, coinbaserRequest template = some command

/-- A connection that has asked at most once, after a configuration, and for a template. -/
structure Disciplined (templates : List Template) (c : Session) : Prop where
  atMostOne : c.commands.length ≤ 1
  config : c.clientConfigSeen = true → ∃ config, .clientConfig config ∈ c.events
  commands : ∀ command ∈ c.commands, c.clientConfigSeen = true ∧ RequestsFor templates command

/-- What is left to do in a phase is not done yet. -/
def StillToDo (templates : List Template) (c : Session) : LoopPhase → Prop
  | .selecting => c.coinbaserRequested = false → c.commands = []
  | .asking _ => c.clientConfigSeen = true ∧ c.commands = []
  | .requesting command _ =>
      c.clientConfigSeen = true ∧ c.commands = [] ∧ RequestsFor templates command
  | .checking => templates = [] → c.commands = []

structure Orderly (s : UpstreamTask) : Prop where
  ended : ∀ c ∈ s.ended, Disciplined s.templates c
  session : ∀ c, s.session = some c →
    Disciplined s.templates c ∧ StillToDo s.templates c c.phase

section Sessions

variable {templates : List Template} {c : Session}

theorem RequestsFor.append {command : UpstreamCommand} (hrequests : RequestsFor templates command)
    (template : Template) : RequestsFor (templates ++ [template]) command := by
  obtain ⟨other, hmem, hother⟩ := hrequests
  exact ⟨other, List.mem_append_left _ hmem, hother⟩

theorem Disciplined.append (hdisciplined : Disciplined templates c) (template : Template) :
    Disciplined (templates ++ [template]) c where
  atMostOne := hdisciplined.atMostOne
  config := hdisciplined.config
  commands := fun command hcommand =>
    (hdisciplined.commands command hcommand).imp_right fun h => h.append template

theorem Disciplined.receive (hdisciplined : Disciplined templates c) (e : UpstreamEvent) :
    Disciplined templates (c.receive e) where
  atMostOne := hdisciplined.atMostOne
  config := by
    intro hseen
    obtain ⟨config, hmem⟩ := hdisciplined.config hseen
    exact ⟨config, List.mem_append_left _ hmem⟩
  commands := hdisciplined.commands

theorem Disciplined.receiveConfig (hdisciplined : Disciplined templates c)
    (config : ClientConfig) : Disciplined templates (c.receiveConfig config) where
  atMostOne := hdisciplined.atMostOne
  config := fun _ => ⟨config, List.mem_append_right _ (List.mem_singleton_self _)⟩
  commands := fun command hcommand => ⟨rfl, (hdisciplined.commands command hcommand).2⟩

theorem Disciplined.asked (hdisciplined : Disciplined templates c) (fromConfig : Bool) :
    Disciplined templates (c.asked fromConfig) := by
  cases fromConfig <;>
    exact ⟨hdisciplined.atMostOne, hdisciplined.config, hdisciplined.commands⟩

theorem StillToDo.append {phase : LoopPhase} (htodo : StillToDo templates c phase)
    (template : Template) : StillToDo (templates ++ [template]) c phase := by
  cases phase with
  | selecting => exact htodo
  | asking fromConfig => exact htodo
  | requesting command fromConfig => exact ⟨htodo.1, htodo.2.1, htodo.2.2.append template⟩
  | checking => exact fun hempty => absurd hempty (List.append_ne_nil_of_right_ne_nil _ (by simp))

theorem stillToDo_asked {fromConfig : Bool} (hcommands : templates = [] → c.commands = []) :
    StillToDo templates (c.asked fromConfig) (c.asked fromConfig).phase := by
  cases fromConfig with
  | true => exact hcommands
  | false => exact fun hrequested => nomatch hrequested

theorem stillToDo_receiveConfig (config : ClientConfig)
    (htodo : c.coinbaserRequested = false → c.commands = []) :
    StillToDo templates (c.receiveConfig config) (c.receiveConfig config).phase := by
  cases hrequested : c.coinbaserRequested with
  | true =>
      simp only [Session.receiveConfig, hrequested, if_true]
      exact fun h => nomatch (hrequested.symm.trans h)
  | false =>
      simp only [Session.receiveConfig, hrequested, Bool.false_eq_true, if_false]
      exact ⟨rfl, htodo hrequested⟩

end Sessions

section Steps

variable {s t : UpstreamTask} {c : Session}

theorem Orderly.goesOn (horderly : Orderly s) (hended : t.ended = s.ended)
    (htemplates : t.templates = s.templates) (hsession : t.session = some c)
    (hdisciplined : Disciplined s.templates c) (htodo : StillToDo s.templates c c.phase) :
    Orderly t where
  ended := by
    rw [hended, htemplates]
    exact horderly.ended
  session := by
    intro c' hc'
    rw [hsession] at hc'
    obtain rfl := Option.some.inj hc'
    rw [htemplates]
    exact ⟨hdisciplined, htodo⟩

theorem Orderly.handleEvent (horderly : Orderly s) (hsession : s.session = some c)
    (hphase : c.phase = .selecting) (e : UpstreamEvent) : Orderly (handleEvent s c e) := by
  obtain ⟨hdisciplined, htodo⟩ := horderly.session c hsession
  rw [hphase] at htodo
  have hreceive : StillToDo s.templates (c.receive e) (c.receive e).phase := by
    rw [Session.receive, hphase]
    exact htodo
  cases e with
  | coinbaser response =>
      simp only [UpstreamSession.handleEvent]
      split <;> exact horderly.goesOn rfl rfl rfl (hdisciplined.receive _) hreceive
  | clientConfig config =>
      exact horderly.goesOn rfl rfl rfl (hdisciplined.receiveConfig config)
        (stillToDo_receiveConfig config htodo)
  | shareResponse response =>
      simp only [UpstreamSession.handleEvent]
      split <;> exact horderly.goesOn rfl rfl rfl (hdisciplined.receive _) hreceive
  | blockNotify payload =>
      exact horderly.goesOn rfl rfl rfl (hdisciplined.receive _) hreceive
  | jobValidationRequest body =>
      exact horderly.goesOn rfl rfl rfl (hdisciplined.receive _) hreceive
  | unknownFrame protoCmd body =>
      exact horderly.goesOn rfl rfl rfl (hdisciplined.receive _) hreceive

theorem Orderly.step {a : UpstreamAction} (horderly : Orderly s) (hstep : UpstreamStep s a t) :
    Orderly t := by
  cases hstep with
  | template template =>
      constructor
      · exact fun c hc => (horderly.ended c hc).append template
      · intro c' hc'
        obtain ⟨c, hsession, rfl⟩ := Option.map_eq_some_iff.mp hc'
        obtain ⟨hdisciplined, htodo⟩ := horderly.session c hsession
        have happend := hdisciplined.append template
        refine ⟨⟨happend.atMostOne, happend.config, happend.commands⟩, ?_⟩
        cases hphase : c.phase with
        | selecting | asking fromConfig | requesting command fromConfig | checking =>
            have happended := htodo.append template
            rw [hphase] at happended
            exact happended
  | connected hnone =>
      exact horderly.goesOn rfl rfl rfl
        ⟨Nat.zero_le 1, (fun h => nomatch h), (fun _ h => nomatch h)⟩ fun _ => rfl
  | templateChanged c hsession hphase hunseen =>
      obtain ⟨hdisciplined, htodo⟩ := horderly.session c hsession
      rw [hphase] at htodo
      refine horderly.goesOn rfl rfl rfl
        ⟨hdisciplined.atMostOne, hdisciplined.config, hdisciplined.commands⟩ ?_
      dsimp only
      split_ifs with hready
      · rw [Bool.and_eq_true, Bool.not_eq_true'] at hready
        exact ⟨hready.1, htodo hready.2⟩
      · exact htodo
  | event c e hsession hphase => exact horderly.handleEvent hsession hphase e
  | ask c fromConfig template command hsession hphase hlast hrequest =>
      obtain ⟨hdisciplined, htodo⟩ := horderly.session c hsession
      rw [hphase] at htodo
      have hrequests : RequestsFor s.templates command :=
        ⟨template, List.mem_of_getLast? hlast, hrequest⟩
      exact horderly.goesOn rfl rfl rfl
        ⟨hdisciplined.atMostOne, hdisciplined.config, hdisciplined.commands⟩
        ⟨htodo.1, htodo.2, hrequests⟩
  | askNothing c fromConfig hsession hphase hnone =>
      obtain ⟨hdisciplined, htodo⟩ := horderly.session c hsession
      rw [hphase] at htodo
      exact horderly.goesOn rfl rfl rfl (hdisciplined.asked fromConfig)
        (stillToDo_asked fun _ => htodo.2)
  | sent c command fromConfig hsession hphase =>
      obtain ⟨hdisciplined, htodo⟩ := horderly.session c hsession
      rw [hphase] at htodo
      obtain ⟨hseen, hempty, hrequests⟩ := htodo
      have hsent : Disciplined s.templates { c with commands := c.commands ++ [command] } := by
        refine ⟨?_, hdisciplined.config, ?_⟩
        · rw [hempty]
          exact le_rfl
        · intro other hother
          rw [hempty, List.nil_append, List.mem_singleton] at hother
          exact ⟨hseen, hother ▸ hrequests⟩
      refine horderly.goesOn rfl rfl rfl (hsent.asked fromConfig) (stillToDo_asked ?_)
      intro hnil
      obtain ⟨template, hmem, -⟩ := hrequests
      rw [hnil] at hmem
      cases hmem
  | sendFailed c command fromConfig hsession hphase =>
      obtain ⟨hdisciplined, htodo⟩ := horderly.session c hsession
      rw [hphase] at htodo
      exact horderly.goesOn rfl rfl rfl (hdisciplined.asked fromConfig)
        (stillToDo_asked fun _ => htodo.2.1)
  | check c hsession hphase =>
      obtain ⟨hdisciplined, htodo⟩ := horderly.session c hsession
      rw [hphase] at htodo
      refine horderly.goesOn rfl rfl rfl
        ⟨hdisciplined.atMostOne, hdisciplined.config, hdisciplined.commands⟩ ?_
      intro hrequested
      exact htodo (by simpa using hrequested)
  | streamClosed c hsession hphase =>
      constructor
      · intro c' hc'
        rcases List.mem_append.mp hc' with hc' | hc'
        · exact horderly.ended c' hc'
        · obtain rfl := List.mem_singleton.mp hc'
          exact (horderly.session c' hsession).1
      · exact fun _ h => nomatch h

end Steps

theorem orderly_start : Orderly {} where
  ended := fun _ h => nomatch h
  session := fun _ h => nomatch h

/-- On every connection, however its events, new templates and the loss of the connection fall
together, at most one coinbaser is asked for, after the pool has sent a configuration on it, and
for a template that bitcoind has given. -/
theorem coinbaser_requests (t : UpstreamTask) (hreachable : Reachable upstreamStep {} t) :
    ∀ c ∈ t.ended ++ t.session.toList, Disciplined t.templates c := by
  have horderly : Orderly t :=
    hreachable.invariant orderly_start fun _ _ _ hinv hstep => hinv.step (upstreamStep_cases hstep)
  intro c hc
  rcases List.mem_append.mp hc with hc | hc
  · exact horderly.ended c hc
  · exact (horderly.session c (Option.mem_toList.mp hc)).1

def someConfig : ClientConfig where
  poolScriptsig := []
  primeId := 1
  poolCoinbaseTag := [0x4F]
  vardiffMin := 1024

theorem coinbaser_requests_two_connections :
    ∃ t, Reachable upstreamStep {} t ∧
      ((t.ended ++ t.session.toList).map (fun c => c.commands.length) == [1, 1]) = true ∧
      ∀ c ∈ t.ended ++ t.session.toList, Disciplined t.templates c := by
  obtain ⟨t, hreachable, ht⟩ := exists_reachable_of_runActions upstreamStep {}
    [.connected, .event (.clientConfig someConfig), .ask, .check, .template emptyTemplate,
      .templateChanged, .ask, .sent, .streamClosed, .connected, .templateChanged,
      .event (.clientConfig someConfig), .ask, .sent, .check]
    (fun t => (t.ended ++ t.session.toList).map (fun c => c.commands.length) == [1, 1])
    (by decide +kernel)
  exact ⟨t, hreachable, ht, coinbaser_requests t hreachable⟩

/-- The templates can be asked for, the queue takes what is put into it, and no first template
comes between the two looks at it. -/
def undisturbed (s : UpstreamTask) : UpstreamAction → Bool
  | .template template =>
      (coinbaserRequest template).isSome &&
        !(s.templates.isEmpty && s.session.any fun c => c.phase == .checking)
  | .sendFailed => false
  | _ => true

def AskedOnce (templates : List Template) (c : Session) : Prop :=
  ∃ command, c.commands = [command] ∧ RequestsFor templates command

/-- What the loop still has to wake up for, or has done. -/
def Prompt (templates : List Template) (c : Session) : LoopPhase → Prop
  | .selecting =>
      (c.coinbaserRequested = true → AskedOnce templates c) ∧
        (c.coinbaserRequested = false → c.clientConfigSeen = true → templates ≠ [] →
          c.templateUnseen = true)
  | .asking fromConfig => fromConfig = false → templates ≠ []
  | .requesting _ _ => True
  | .checking => templates ≠ [] → AskedOnce templates c

structure Answered (s : UpstreamTask) : Prop where
  orderly : Orderly s
  readable : ∀ template ∈ s.templates, (coinbaserRequest template).isSome
  session : ∀ c, s.session = some c →
    (c.templateUnseen = true → s.templates ≠ []) ∧ Prompt s.templates c c.phase

section Answers

variable {s t : UpstreamTask} {c : Session} {templates : List Template}

theorem AskedOnce.append (hasked : AskedOnce templates c) (template : Template) :
    AskedOnce (templates ++ [template]) c := by
  obtain ⟨command, hcommand, hrequests⟩ := hasked
  exact ⟨command, hcommand, hrequests.append template⟩

theorem Answered.goesOn (hanswered : Answered s) (horderly : Orderly t)
    (htemplates : t.templates = s.templates) (hsession : t.session = some c)
    (hunseen : c.templateUnseen = true → s.templates ≠ [])
    (hprompt : Prompt s.templates c c.phase) : Answered t where
  orderly := horderly
  readable := by
    rw [htemplates]
    exact hanswered.readable
  session := by
    intro c' hc'
    rw [hsession] at hc'
    obtain rfl := Option.some.inj hc'
    rw [htemplates]
    exact ⟨hunseen, hprompt⟩

theorem prompt_receiveConfig (config : ClientConfig) (hprompt : Prompt templates c .selecting) :
    Prompt templates (c.receiveConfig config) (c.receiveConfig config).phase := by
  cases hrequested : c.coinbaserRequested with
  | true =>
      simp only [Session.receiveConfig, hrequested, if_true]
      exact ⟨fun _ => hprompt.1 hrequested, fun h => nomatch hrequested.symm.trans h⟩
  | false =>
      simp only [Session.receiveConfig, hrequested, Bool.false_eq_true, if_false]
      exact fun h => nomatch h

theorem Answered.handleEvent (hanswered : Answered s) (hsession : s.session = some c)
    (hphase : c.phase = .selecting) (e : UpstreamEvent) : Answered (handleEvent s c e) := by
  have horderly := hanswered.orderly.handleEvent hsession hphase e
  obtain ⟨hunseen, hprompt⟩ := hanswered.session c hsession
  rw [hphase] at hprompt
  have hreceive : Prompt s.templates (c.receive e) (c.receive e).phase := by
    rw [Session.receive, hphase]
    exact hprompt
  cases e with
  | coinbaser response =>
      simp only [UpstreamSession.handleEvent] at horderly ⊢
      split at horderly <;> exact hanswered.goesOn horderly rfl rfl hunseen hreceive
  | clientConfig config =>
      exact hanswered.goesOn horderly rfl rfl hunseen (prompt_receiveConfig config hprompt)
  | shareResponse response =>
      simp only [UpstreamSession.handleEvent] at horderly ⊢
      split at horderly <;> exact hanswered.goesOn horderly rfl rfl hunseen hreceive
  | blockNotify payload => exact hanswered.goesOn horderly rfl rfl hunseen hreceive
  | jobValidationRequest body => exact hanswered.goesOn horderly rfl rfl hunseen hreceive
  | unknownFrame protoCmd body => exact hanswered.goesOn horderly rfl rfl hunseen hreceive

theorem Answered.template (hanswered : Answered s) {template : Template}
    (hundisturbed : undisturbed s (.template template) = true)
    (horderly : Orderly t) (htemplates : t.templates = s.templates ++ [template])
    (hsession : t.session = s.session.map fun c => { c with templateUnseen := true }) :
    Answered t where
  orderly := horderly
  readable := by
    intro other hother
    rw [htemplates] at hother
    rcases List.mem_append.mp hother with hother | hother
    · exact hanswered.readable other hother
    · obtain rfl := List.mem_singleton.mp hother
      exact (Bool.and_eq_true_iff.mp hundisturbed).1
  session := by
    have hne : s.templates ++ [template] ≠ [] := by simp
    intro c' hc'
    rw [hsession] at hc'
    obtain ⟨c, hc, rfl⟩ := Option.map_eq_some_iff.mp hc'
    obtain ⟨-, hprompt⟩ := hanswered.session c hc
    rw [htemplates]
    refine ⟨fun _ => hne, ?_⟩
    dsimp only
    cases hphase : c.phase with
    | selecting =>
        rw [hphase] at hprompt
        exact ⟨fun hrequested => (hprompt.1 hrequested).append template, fun _ _ _ => rfl⟩
    | asking fromConfig => exact fun _ => hne
    | requesting command fromConfig => trivial
    | checking =>
        -- a template was there at the first look already
        have hsome : s.templates ≠ [] := by
          intro hempty
          simp [undisturbed, hempty, hc, hphase] at hundisturbed
        rw [hphase] at hprompt
        exact fun _ => (hprompt hsome).append template

theorem Answered.step {a : UpstreamAction} (hanswered : Answered s)
    (hundisturbed : undisturbed s a = true) (hstep : UpstreamStep s a t) : Answered t := by
  have horderly := hanswered.orderly.step hstep
  cases hstep with
  | template template => exact hanswered.template hundisturbed horderly rfl rfl
  | connected hnone =>
      exact hanswered.goesOn horderly rfl rfl (by simp)
        ⟨(fun h => nomatch h), fun _ h => nomatch h⟩
  | templateChanged c hsession hphase hunseen =>
      obtain ⟨hsome, hprompt⟩ := hanswered.session c hsession
      rw [hphase] at hprompt
      refine hanswered.goesOn horderly rfl rfl (fun h => nomatch h) ?_
      dsimp only
      split_ifs with hready
      · exact fun _ => hsome hunseen
      · refine ⟨hprompt.1, ?_⟩
        intro hrequested hseen
        have hready' : (c.clientConfigSeen && !c.coinbaserRequested) = true := by
          rw [hrequested, hseen]
          rfl
        exact absurd hready' hready
  | event c e hsession hphase => exact hanswered.handleEvent hsession hphase e
  | ask c fromConfig template command hsession hphase hlast hrequest =>
      exact hanswered.goesOn horderly rfl rfl (hanswered.session c hsession).1 trivial
  | askNothing c fromConfig hsession hphase hnone =>
      obtain ⟨hunseen, hprompt⟩ := hanswered.session c hsession
      rw [hphase] at hprompt
      -- every template can be asked for, so there is none
      have hempty : s.templates = [] := by
        by_contra hne
        have hlast := List.getLast?_eq_some_getLast hne
        have hsome := hanswered.readable _ (List.getLast_mem hne)
        rw [hnone _ hlast] at hsome
        cases hsome
      cases fromConfig with
      | true => exact hanswered.goesOn horderly rfl rfl hunseen fun hne => absurd hempty hne
      | false => exact absurd hempty (hprompt rfl)
  | sent c command fromConfig hsession hphase =>
      obtain ⟨hunseen, -⟩ := hanswered.session c hsession
      obtain ⟨-, htodo⟩ := hanswered.orderly.session c hsession
      rw [hphase] at htodo
      have hasked : AskedOnce s.templates { c with commands := c.commands ++ [command] } :=
        ⟨command, by rw [htodo.2.1, List.nil_append], htodo.2.2⟩
      cases fromConfig with
      | true => exact hanswered.goesOn horderly rfl rfl hunseen fun _ => hasked
      | false =>
          exact hanswered.goesOn horderly rfl rfl hunseen ⟨fun _ => hasked, fun h => nomatch h⟩
  | sendFailed c command fromConfig hsession hphase => cases hundisturbed
  | check c hsession hphase =>
      obtain ⟨hunseen, hprompt⟩ := hanswered.session c hsession
      rw [hphase] at hprompt
      refine hanswered.goesOn horderly rfl rfl hunseen ⟨?_, ?_⟩
      · intro hrequested
        exact hprompt (by simpa using hrequested)
      · intro hrequested _ hne
        exact absurd (by simpa using hrequested) hne
  | streamClosed c hsession hphase =>
      exact ⟨horderly, hanswered.readable, fun _ h => nomatch h⟩

end Answers

theorem answered_start : Answered {} where
  orderly := orderly_start
  readable := fun _ h => nomatch h
  session := fun _ h => nomatch h

/-- Wherever the loop is at its select, the pool has configured the gateway and the loop has seen a
template, one coinbaser has been asked for on the connection. -/
theorem coinbaser_requested_once (t : UpstreamTask) (c : Session)
    (hreaches : Reaches upstreamStep (fun s a => undisturbed s a = true) {} t)
    (hsession : t.session = some c) (hphase : c.phase = .selecting)
    (hseen : c.clientConfigSeen = true) (htemplates : t.templates ≠ [])
    (hunseen : c.templateUnseen = false) :
    ∃ command, c.commands = [command] ∧ RequestsFor t.templates command := by
  have hanswered : Answered t :=
    hreaches.invariant answered_start fun _ _ _ hinv hundisturbed hstep =>
      hinv.step hundisturbed (upstreamStep_cases hstep)
  obtain ⟨-, hprompt⟩ := hanswered.session c hsession
  rw [hphase] at hprompt
  cases hrequested : c.coinbaserRequested with
  | true => exact hprompt.1 hrequested
  | false =>
      rw [hprompt.2 hrequested hseen htemplates] at hunseen
      cases hunseen

theorem coinbaser_requested_once_for_new_template :
    ∃ t c, Reaches upstreamStep (fun s a => undisturbed s a = true) {} t ∧ t.session = some c ∧
      ∃ command, c.commands = [command] ∧ RequestsFor t.templates command := by
  obtain ⟨t, hreaches, ht⟩ := exists_reaches_of_runGuarded upstreamStep undisturbed {}
    [.connected, .event (.clientConfig someConfig), .ask, .check, .template emptyTemplate,
      .templateChanged, .ask, .sent]
    (fun t => !t.templates.isEmpty && t.session.any fun c =>
      c.phase == .selecting && c.clientConfigSeen && !c.templateUnseen)
    (by decide +kernel)
  obtain ⟨htemplates, hsession⟩ := Bool.and_eq_true_iff.mp ht
  obtain ⟨c, hsession, hc⟩ := Option.any_eq_true _ _ |>.mp hsession
  simp only [Bool.and_eq_true, beq_iff_eq, Bool.not_eq_true'] at hc
  exact ⟨t, c, hreaches, hsession, coinbaser_requested_once t c hreaches hsession hc.1.1 hc.1.2
    (by simpa using htemplates) hc.2⟩

/-- A first template between the two looks: the loop takes it that it has asked. -/
theorem coinbaser_request_lost :
    ∃ t, Reachable upstreamStep {} t ∧
      t.session.any (fun c => c.clientConfigSeen && c.coinbaserRequested && c.commands.isEmpty &&
        c.phase == .selecting) = true :=
  exists_reachable_of_runActions upstreamStep {}
    [.connected, .event (.clientConfig someConfig), .ask, .template emptyTemplate, .check]
    (fun t => t.session.any fun c => c.clientConfigSeen && c.coinbaserRequested &&
      c.commands.isEmpty && c.phase == .selecting) (by decide +kernel)

end DatumGateway.CoinbaserRequests
