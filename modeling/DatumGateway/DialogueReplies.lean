import DatumGateway.MinerDialogues

namespace DatumGateway.DialogueReplies

open DatumGateway.ByteString
open DatumGateway.EmitSnapshots
open DatumGateway.JsonValues
open DatumGateway.MinerDialogues
open DatumGateway.NotifyPatches (Value)
open DatumGateway.ShareEncoder
open DatumGateway.StratumV1Connection
open DatumGateway.StratumV1Messages
open DatumGateway.StratumV1Server
open DatumGateway.TransitionSystem

def responses (written : List Written) : List StratumResponse :=
  written.filterMap Written.response?

def lastMask (written : List Written) : Option UInt32 :=
  (written.filterMap Written.mask?).getLast?

/-- What the answer to a line is known by; a line that is no request has none. -/
def askedId : Option StratumRequest → Value
  | none => .null
  | some r => r.id

def isAcknowledged : Option StratumRequest × StratumResponse → Bool
  | (none, _) => false
  | (some r, response) => Method.ofName r.method == .submit && isNull response.error

/-- The mask that shares are held against. -/
def negotiated (conn : MinerConnection) : Option UInt32 :=
  if conn.versionRollingEnabled then some conn.versionRollingMask else none

/-- As many shares have been enqueued as submits have been acknowledged; those that are not
waiting have been relayed, in this order, or dropped by the relay. -/
structure SharesKept (d : Dialogue) : Prop where
  acknowledged :
    ((d.asked.zip (responses d.written)).countP isAcknowledged) = d.enqueued.length
  queue : ∃ taken, d.enqueued = taken ++ d.link.state.submitted ∧
    (d.link.state.forwarded.map Prod.fst).Sublist taken

structure Conversed (d : Dialogue) : Prop where
  ids : (responses d.written).map StratumResponse.id = d.asked.map askedId
  pushed : d.written.filterMap Written.push? = d.link.written
  mask : lastMask d.written = negotiated d.link.state.conn
  shares : SharesKept d

/-! What an action of the connection leaves as it is. -/

structure SameShares (s t : ConnectionState) : Prop where
  enabled : t.conn.versionRollingEnabled = s.conn.versionRollingEnabled
  mask : t.conn.versionRollingMask = s.conn.versionRollingMask
  submitted : t.submitted = s.submitted
  forwarded : t.forwarded = s.forwarded

theorem SameShares.negotiated {s t : ConnectionState} (hsame : SameShares s t) :
    negotiated t.conn = negotiated s.conn := by
  rw [DialogueReplies.negotiated, hsame.enabled, hsame.mask, DialogueReplies.negotiated]

theorem sameShares_sendPending (s : ConnectionState) : SameShares s s.sendPending := by
  rw [ConnectionState.sendPending]
  cases s.notify <;> exact ⟨rfl, rfl, rfl, rfl⟩

theorem sameShares_changeDiff (s : ConnectionState) (newDiff : UInt64) :
    SameShares s (s.changeDiff newDiff) := by
  rw [ConnectionState.changeDiff]
  dsimp only
  split_ifs
  · obtain ⟨henabled, hmask, hsubmitted, hforwarded⟩ :=
      sameShares_sendPending { s with conn := { s.conn with currentDiff := newDiff } }
    exact ⟨henabled, hmask, hsubmitted, hforwarded⟩
  · exact ⟨rfl, rfl, rfl, rfl⟩

section Steps

variable {sha256d : Bytes → Bytes32} {userCfg : ShareUserConfig}

/-- The shares that wait, the one that comes and the one that the relay takes. -/
structure MovesShares (s t : ConnectionState) (a : ConnectionAction) : Prop where
  queue : ∃ gone relayed, s.submitted ++ sharesOf s.conn a = gone ++ t.submitted ∧
    t.forwarded = s.forwarded ++ relayed ∧ (relayed.map Prod.fst).Sublist gone
  mask : negotiated t.conn = ((maskTold a).filterMap Written.mask?).getLast?.or (negotiated s.conn)

theorem SameShares.moves {s t : ConnectionState} {a : ConnectionAction} (hsame : SameShares s t)
    (hshares : sharesOf s.conn a = []) (hmask : maskTold a = []) : MovesShares s t a where
  queue := ⟨[], [], by rw [hshares, hsame.submitted, List.append_nil, List.nil_append],
    by rw [hsame.forwarded, List.append_nil], List.Sublist.refl []⟩
  mask := by
    rw [hsame.negotiated, hmask]
    rfl

theorem movesShares_step {s t : ConnectionState} {a : ConnectionAction}
    (hstep : connectionStep sha256d userCfg s a = some t) : MovesShares s t a := by
  cases connectionStep_cases hstep with
  | configureIgnored names requestedMask hnone =>
      exact SameShares.moves ⟨rfl, rfl, rfl, rfl⟩ rfl (by rw [maskTold, hnone]; rfl)
  | configured names requestedMask mask hmask =>
      refine ⟨⟨[], [], List.append_nil _, (List.append_nil _).symm, List.Sublist.refl []⟩, ?_⟩
      rw [maskTold, hmask]
      rfl
  | subscribed => exact SameShares.moves ⟨rfl, rfl, rfl, rfl⟩ rfl rfl
  | authorized name =>
      obtain ⟨henabled, hmask, hsubmitted, hforwarded⟩ := sameShares_sendPending { s with
        conn := { s.conn with
          authorized := true, authorizedUsername := name.getD s.conn.authorizedUsername } }
      exact SameShares.moves ⟨henabled, hmask, hsubmitted, hforwarded⟩ rfl rfl
  | submitRefused params e hsubmit =>
      exact SameShares.moves ⟨rfl, rfl, rfl, rfl⟩ (by rw [sharesOf, hsubmit]; rfl) rfl
  | submitted params share hsubmit hroom =>
      refine ⟨⟨[], [], ?_, (List.append_nil _).symm, List.Sublist.refl []⟩, rfl⟩
      rw [sharesOf, hsubmit]
      rfl
  | published job => exact SameShares.moves ⟨rfl, rfl, rfl, rfl⟩ rfl rfl
  | poolMinSet poolMin => exact SameShares.moves ⟨rfl, rfl, rfl, rfl⟩ rfl rfl
  | jobSent hunseen hready =>
      obtain ⟨henabled, hmask, hsubmitted, hforwarded⟩ :=
        sameShares_sendPending { s with notifyUnseen := false }
      exact SameShares.moves ⟨henabled, hmask, hsubmitted, hforwarded⟩ rfl rfl
  | jobHeld hunseen hready => exact SameShares.moves ⟨rfl, rfl, rfl, rfl⟩ rfl rfl
  | poolMinRaised hunseen hraise =>
      obtain ⟨henabled, hmask, hsubmitted, hforwarded⟩ :=
        sameShares_changeDiff { s with poolMinUnseen := false } s.floor
      exact SameShares.moves ⟨henabled, hmask, hsubmitted, hforwarded⟩ rfl rfl
  | poolMinKept hunseen hraise => exact SameShares.moves ⟨rfl, rfl, rfl, rfl⟩ rfl rfl
  | diffChanged elapsedSecs hchange =>
      obtain ⟨henabled, hmask, hsubmitted, hforwarded⟩ :=
        sameShares_changeDiff s (s.newDiff elapsedSecs)
      exact SameShares.moves ⟨henabled, hmask, hsubmitted, hforwarded⟩ rfl rfl
  | diffKept elapsedSecs hchange => exact SameShares.moves ⟨rfl, rfl, rfl, rfl⟩ rfl rfl
  | relayRefused tracker paddingByte share submitted hsubmitted hrelay =>
      exact ⟨⟨[share], [], (List.append_nil _).trans hsubmitted, (List.append_nil _).symm,
        List.nil_sublist _⟩, rfl⟩
  | relayed tracker paddingByte share submitted enc after hsubmitted hrelay =>
      exact ⟨⟨[share], [(share, enc)], (List.append_nil _).trans hsubmitted, rfl,
        List.Sublist.refl [share]⟩, rfl⟩

/-! A step of the dialogue. -/

theorem sharesOf_of_not_isRequest {conn : MinerConnection} {a : ConnectionAction}
    (hother : isRequest a = false) : sharesOf conn a = [] := by
  cases a with
  | submit params => cases hother
  | _ => rfl

theorem maskTold_of_not_isRequest {a : ConnectionAction} (hother : isRequest a = false) :
    maskTold a = [] := by
  cases a with
  | configure names requestedMask => cases hother
  | _ => rfl

theorem id_respond (clientId : UInt32) (conn : MinerConnection) (r : StratumRequest) :
    (respond clientId conn r).id = r.id := by
  rw [respond]
  split
  · split <;> rfl
  · rfl
  · rfl
  · split <;> rfl
  · rfl
  · rfl

theorem isAcknowledged_respond (clientId : UInt32) (conn : MinerConnection) (r : StratumRequest) :
    (isAcknowledged (some r, respond clientId conn r)).toNat =
      ((requestAction r).toList.flatMap (sharesOf conn)).length := by
  cases hmethod : Method.ofName r.method with
  | submit =>
      cases hsubmit : submit conn (((asArray r.params).getD []).map asStr) <;>
        simp [isAcknowledged, respond, requestAction, hmethod, sharesOf, hsubmit, isNull,
          StratumResponse.ok, StratumResponse.err, Except.toOption]
  | configure =>
      cases hnames : extensionNames r.params <;>
        simp [isAcknowledged, requestAction, hmethod, hnames, sharesOf]
  | subscribe => simp [isAcknowledged, requestAction, hmethod, sharesOf]
  | authorize => simp [isAcknowledged, requestAction, hmethod, sharesOf]
  | suggestDifficulty => simp [isAcknowledged, requestAction, hmethod]
  | other name => simp [isAcknowledged, requestAction, hmethod]

theorem filterMap_push (messages : List ServerMessage) :
    (messages.map Written.push).filterMap Written.push? = messages := by
  rw [List.filterMap_map]
  exact List.filterMap_some

theorem response?_push (messages : List ServerMessage) :
    (messages.map Written.push).filterMap Written.response? = [] := by
  rw [List.filterMap_map, List.filterMap_eq_nil_iff]
  intro _ _
  rfl

theorem mask?_push (messages : List ServerMessage) :
    (messages.map Written.push).filterMap Written.mask? = [] := by
  rw [List.filterMap_map, List.filterMap_eq_nil_iff]
  intro _ _
  rfl

theorem maskTold_eq (a : ConnectionAction) :
    maskTold a = ((maskTold a).filterMap Written.mask?).map .setVersionMask := by
  cases a with
  | configure names requestedMask =>
      rw [maskTold]
      cases negotiatedMask names requestedMask <;> rfl
  | _ => rfl

theorem response?_maskTold (a : ConnectionAction) :
    (maskTold a).filterMap Written.response? = [] := by
  rw [maskTold_eq, List.filterMap_map, List.filterMap_eq_nil_iff]
  intro _ _
  rfl

theorem push?_maskTold (a : ConnectionAction) : (maskTold a).filterMap Written.push? = [] := by
  rw [maskTold_eq, List.filterMap_map, List.filterMap_eq_nil_iff]
  intro _ _
  rfl

theorem Conversed.answer {d t : Dialogue} (hconversed : Conversed d)
    (asked : Option StratumRequest) (response : StratumResponse) (told : List Written)
    (pushed : List ServerMessage)
    (hasked : t.asked = d.asked ++ [asked])
    (hwritten : t.written = d.written ++ .response response :: (told ++ pushed.map .push))
    (hid : response.id = askedId asked)
    (hlink : t.link.written = d.link.written ++ pushed)
    (htold : told.filterMap Written.response? = [] ∧ told.filterMap Written.push? = [])
    (hmask : negotiated t.link.state.conn =
      (told.filterMap Written.mask?).getLast?.or (negotiated d.link.state.conn))
    (hacknowledged : (isAcknowledged (asked, response)).toNat + d.enqueued.length =
      t.enqueued.length)
    (hqueue : ∃ taken, t.enqueued = taken ++ t.link.state.submitted ∧
      (t.link.state.forwarded.map Prod.fst).Sublist taken) : Conversed t := by
  have hresponses : responses t.written = responses d.written ++ [response] := by
    rw [responses, hwritten, List.filterMap_append,
      List.filterMap_cons_some (rfl : Written.response? (.response response) = some response),
      List.filterMap_append, htold.1, response?_push, List.append_nil, responses]
  have hlength : d.asked.length = (responses d.written).length := by
    have hlengths := congrArg List.length hconversed.ids
    rw [List.length_map, List.length_map] at hlengths
    exact hlengths.symm
  constructor
  · rw [hresponses, hasked, List.map_append, List.map_append, hconversed.ids, List.map_singleton,
      hid, List.map_singleton]
  · rw [hwritten, List.filterMap_append,
      List.filterMap_cons_none (rfl : Written.push? (.response response) = none),
      List.filterMap_append, htold.2, filterMap_push, hconversed.pushed, hlink, List.nil_append]
  · have hmasks : t.written.filterMap Written.mask? =
        d.written.filterMap Written.mask? ++ told.filterMap Written.mask? := by
      rw [hwritten, List.filterMap_append,
        List.filterMap_cons_none (rfl : Written.mask? (.response response) = none),
        List.filterMap_append, mask?_push, List.append_nil]
    rw [lastMask, hmasks, List.getLast?_append, hmask, ← hconversed.mask, lastMask]
  · constructor
    · rw [hresponses, hasked, List.zip_append hlength, List.countP_append,
        hconversed.shares.acknowledged, List.zip_cons_cons, List.zip_nil_right,
        List.countP_singleton, ← hacknowledged]
      cases isAcknowledged (asked, response) <;> simp [Nat.add_comm]
    · exact hqueue

theorem Conversed.refuseLine {d : Dialogue} (hconversed : Conversed d) :
    Conversed (refuseLine d) :=
  hconversed.answer none parseError [] [] rfl rfl rfl (List.append_nil _).symm ⟨rfl, rfl⟩ rfl
    (Nat.zero_add _) hconversed.shares.queue

theorem Conversed.queue_step {d : Dialogue} (hconversed : Conversed d) {a : ConnectionAction}
    {t : ConnectionState} (hmoves : MovesShares d.link.state t a) :
    ∃ taken, d.enqueued ++ sharesOf d.link.state.conn a = taken ++ t.submitted ∧
      (t.forwarded.map Prod.fst).Sublist taken := by
  obtain ⟨taken, henqueued, hforwarded⟩ := hconversed.shares.queue
  obtain ⟨gone, relayed, hsubmitted, hrelayed, hgone⟩ := hmoves.queue
  refine ⟨taken ++ gone, ?_, ?_⟩
  · rw [henqueued, List.append_assoc, hsubmitted, List.append_assoc]
  · rw [hrelayed, List.map_append]
    exact hforwarded.append hgone

theorem Conversed.step {d t : Dialogue} {a : DialogueAction} (hconversed : Conversed d)
    (hstep : DialogueStep sha256d userCfg d a t) : Conversed t := by
  cases hstep with
  | blank => exact hconversed
  | refused line => exact hconversed.refuseLine
  | answered v r hparse hnone =>
      have hacknowledged := isAcknowledged_respond d.clientId d.link.state.conn r
      rw [hnone] at hacknowledged
      refine hconversed.answer (some r) _ [] [] rfl rfl (id_respond _ _ r)
        (List.append_nil _).symm ⟨rfl, rfl⟩ rfl ?_ hconversed.shares.queue
      rw [hacknowledged]
      exact Nat.zero_add _
  | done v r a link hparse haction hlink =>
      obtain ⟨state, hstate, rfl⟩ := Option.map_eq_some_iff.mp hlink
      have hmoves := movesShares_step hstate
      have hacknowledged := isAcknowledged_respond d.clientId d.link.state.conn r
      rw [haction] at hacknowledged
      refine hconversed.answer (some r) _ (maskTold a) (messages d.link.state a) rfl rfl
        (id_respond _ _ r) rfl ⟨response?_maskTold a, push?_maskTold a⟩ hmoves.mask ?_
        (hconversed.queue_step hmoves)
      rw [hacknowledged, List.length_append, Nat.add_comm]
      simp
  | other a link hother hlink =>
      obtain ⟨state, hstate, rfl⟩ := Option.map_eq_some_iff.mp hlink
      have hmoves := movesShares_step hstate
      have hmask := hmoves.mask
      rw [maskTold_of_not_isRequest hother] at hmask
      have hqueue := hconversed.queue_step hmoves
      rw [sharesOf_of_not_isRequest hother, List.append_nil] at hqueue
      have hresponses : responses (d.written ++ (messages d.link.state a).map .push) =
          responses d.written := by
        rw [responses, List.filterMap_append, response?_push, List.append_nil, responses]
      refine ⟨?_, ?_, ?_, ⟨?_, hqueue⟩⟩
      · rw [hresponses]
        exact hconversed.ids
      · rw [List.filterMap_append, filterMap_push, hconversed.pushed]
      · rw [lastMask, List.filterMap_append, mask?_push, List.append_nil]
        exact hconversed.mask.trans hmask.symm
      · rw [hresponses]
        exact hconversed.shares.acknowledged

end Steps

def greet (clientId : UInt32) (link : MinerLink) : Dialogue where
  clientId
  link

/-- However lines, jobs, difficulties and the relay fall together, the miner has one answer for
each line that was not blank, by its id and in its place; what is sent unasked is what the
connection without its requests and answers writes; the last mask told is the one in force; and
as many shares are acknowledged as go to the relay, which takes them in order. -/
theorem dialogue_converses (sha256d : Bytes → Bytes32) (userCfg : ShareUserConfig)
    (clientId : UInt32) (vardiff : VardiffParams) (xn1 : UInt32) (notify : Option NotifyJob)
    (notifyUnseen : Bool) (poolMin : UInt64) (poolMinUnseen : Bool) (d : Dialogue)
    (hreachable : Reachable (dialogueStep sha256d userCfg)
      (greet clientId (connect vardiff xn1 notify notifyUnseen poolMin poolMinUnseen)) d) :
    Reachable (linkStep sha256d userCfg)
      (connect vardiff xn1 notify notifyUnseen poolMin poolMinUnseen) d.link ∧
    Conversed d := by
  constructor
  · refine hreachable.simulates Dialogue.link ?_
    intro d a t hstep
    cases dialogueStep_cases hstep with
    | blank => exact .inl rfl
    | refused line => exact .inl rfl
    | answered v r hparse hnone => exact .inl rfl
    | done v r a link hparse haction hlink => exact .inr ⟨a, hlink⟩
    | other a link hother hlink => exact .inr ⟨a, hlink⟩
  · refine hreachable.invariant ?_ fun _ _ _ hinv hstep => hinv.step (dialogueStep_cases hstep)
    exact ⟨rfl, rfl, rfl, ⟨rfl, [], rfl, List.Sublist.refl []⟩⟩

def requestLine (id : String) (method : String) (params : List Value) : DialogueAction :=
  .line (.json (.object
    [("id", .number id), ("method", .string method), ("params", .array params)]))

theorem dialogue_converses_of_miner :
    ∃ d, Reachable (dialogueStep (fun _ => ByteVec.fill 32 0) plainUser)
        (greet 7 (connect defaultVardiff 0 (some (numberedJob 0)) false 1 false)) d ∧
      ((responses d.written).length == 6 && d.enqueued.length == 1 &&
        d.link.written.length == 2 && lastMask d.written == some 0x1fffe000) = true ∧
      Reachable (linkStep (fun _ => ByteVec.fill 32 0) plainUser)
        (connect defaultVardiff 0 (some (numberedJob 0)) false 1 false) d.link ∧
      Conversed d := by
  obtain ⟨d, hreachable, hd⟩ := exists_reachable_of_runActions
    (dialogueStep (fun _ => ByteVec.fill 32 0) plainUser)
    (greet 7 (connect defaultVardiff 0 (some (numberedJob 0)) false 1 false))
    [requestLine "1" "mining.configure" [.array [.string "version-rolling"], .null],
      requestLine "2" "mining.subscribe" [], .line .notJson, .line .blank,
      requestLine "3" "mining.authorize" [.string "miner"],
      requestLine "4" "mining.submit"
        [.string "", .string "0", .string "00", .string "00", .string "00"],
      requestLine "5" "mining.submit"
        [.string "", .string "0", .string "00", .string "00", .string "00",
          .string "0x00002000"]]
    (fun d => (responses d.written).length == 6 && d.enqueued.length == 1 &&
      d.link.written.length == 2 && lastMask d.written == some 0x1fffe000)
    (by decide +kernel)
  exact ⟨d, hreachable, hd, dialogue_converses _ _ _ _ _ _ _ _ _ d hreachable⟩

end DatumGateway.DialogueReplies
