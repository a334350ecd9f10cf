import Mathlib.Data.List.Infix
import WebLens.ControlPlane.SiteClones
import WebLens.SiteClone.Collection

/-!
# The trace of a phase that was retried

A phase that fails and is retried leaves its code in the row of the job, and no statement clears
it: the code stays until the job ends, every later event carries it, and the request of the Control
Plane stores it when it ends. So a success after a retry is reported with a terminal code in every
run.
-/

set_option autoImplicit false
set_option relaxedAutoImplicit false

namespace WebLens.SiteClone

open Lib Lib.Utf8 Lib.Transaction
open Capture (Uuid Instant Duration second)
open ControlPlane (isBlank SiteCloneRequest)

variable {env : Env} {now : Instant} {action : Action} {c c' : Case}

/-! ### Codes -/

/-- A text that is stored as a code: it is not blank. -/
def IsTerminalCode (code : Option String) : Prop :=
  ∃ text, code = some text ∧ isBlank text = false

def SiteJob.Traced (job : SiteJob) : Prop :=
  IsTerminalCode job.terminalCode

theorem isBlank_boundedCode (env : Env) (value : String) :
    isBlank (boundedCode env value) = false := by
  unfold boundedCode
  simp only []
  generalize hcode : ((value.toList.flatMap env.toUpperCase).map fun c ↦
    if ('A' ≤ c && c ≤ 'Z') || ('0' ≤ c && c ≤ '9') || c = '_' then c else '_').take 64 = code
  cases code with
  | nil => decide +kernel
  | cons char rest =>
    have hmem : char ∈ (value.toList.flatMap env.toUpperCase).map fun c ↦
        if ('A' ≤ c && c ≤ 'Z') || ('0' ≤ c && c ≤ '9') || c = '_' then c else '_' :=
      List.mem_of_mem_take (hcode ▸ List.mem_cons_self)
    obtain ⟨c, -, hchar⟩ := List.mem_map.1 hmem
    have hrange : 0x21 ≤ char.toNat ∧ char.toNat ≤ 0x7E := by
      rw [← hchar]
      split
      · rename_i hkept
        simp only [Bool.or_eq_true, Bool.and_eq_true, decide_eq_true_eq] at hkept
        rcases hkept with (⟨hlow, hhigh⟩ | ⟨hlow, hhigh⟩) | rfl
        · have hlow : ('A' : Char).toNat ≤ c.toNat := hlow
          have hhigh : c.toNat ≤ ('Z' : Char).toNat := hhigh
          exact ⟨le_trans (by decide) hlow, hhigh.trans (by decide)⟩
        · have hlow : ('0' : Char).toNat ≤ c.toNat := hlow
          have hhigh : c.toNat ≤ ('9' : Char).toNat := hhigh
          exact ⟨le_trans (by decide) hlow, hhigh.trans (by decide)⟩
        · decide
      · decide
    have hvisible : ControlPlane.isWhitespace char = false := by
      obtain ⟨hlow, hhigh⟩ := hrange
      unfold ControlPlane.isWhitespace
      simp only [Bool.or_eq_false_iff, Bool.and_eq_false_iff, decide_eq_false_iff_not]
      omega
    simp only [List.isEmpty_cons, Bool.false_eq_true, if_false, isBlank, String.toList_ofList,
      List.all_cons, hvisible, Bool.false_and]

theorem isTerminalCode_boundedCode (env : Env) (value : String) :
    IsTerminalCode (some (boundedCode env value)) :=
  ⟨_, rfl, isBlank_boundedCode env value⟩

theorem isTerminalCode_of_text {text : String} (h : isBlank text = false) :
    IsTerminalCode (some text) :=
  ⟨text, rfl, h⟩

/-! ### What a step does to a code -/

/-- A clone that carries a code keeps one, and all its further events carry one. -/
structure Clone.Traces (d d' : Clone) : Prop where
  job : d.job.Traced → d'.job.Traced
  events : d.job.Traced → ∃ added, d'.events = d.events ++ added ∧
    ∀ event ∈ added, IsTerminalCode event.payload.terminalCode

theorem Clone.Traces.of_eq {d d' : Clone} (hcode : d'.job.terminalCode = d.job.terminalCode)
    (hevents : d'.events = d.events) : d.Traces d' where
  job h := by
    unfold SiteJob.Traced
    rwa [hcode]
  events _ := ⟨[], by rw [hevents, List.append_nil], fun _ h ↦ absurd h List.not_mem_nil⟩

theorem Clone.Traces.of_code {d d' : Clone} (hcode : IsTerminalCode d'.job.terminalCode)
    (hevents : d'.events = d.events) : d.Traces d' where
  job _ := hcode
  events _ := ⟨[], by rw [hevents, List.append_nil], fun _ h ↦ absurd h List.not_mem_nil⟩

theorem Clone.Traces.refl (d : Clone) : d.Traces d :=
  .of_eq rfl rfl

theorem Clone.Traces.trans {d d' d'' : Clone} (h : d.Traces d') (h' : d'.Traces d'') :
    d.Traces d'' where
  job ht := h'.job (h.job ht)
  events ht := by
    obtain ⟨added, heq, hall⟩ := h.events ht
    obtain ⟨added', heq', hall'⟩ := h'.events (h.job ht)
    refine ⟨added ++ added', by rw [heq', heq, List.append_assoc], fun event hevent ↦ ?_⟩
    rcases List.mem_append.1 hevent with hevent | hevent
    · exact hall event hevent
    · exact hall' event hevent

/-- An event carries the code of the job. -/
theorem Clone.Traces.withEvent {d d' : Clone} (h : d.Traces d') (now : Instant)
    (messageId : Uuid) (status : JobStatus) : d.Traces (d'.withEvent now messageId status) :=
  h.trans {
    job := fun ht ↦ ht
    events := fun ht ↦ ⟨_, rfl, fun event hevent ↦ by
      rw [List.mem_singleton.1 hevent]
      exact ht⟩ }

theorem Clone.traces_finishIngestion (d : Clone) (now : Instant) :
    d.Traces (d.finishIngestion now) := by
  unfold Clone.finishIngestion
  by_cases hempty : d.pages.length = 0
  · rw [if_pos hempty]
    exact .of_code (isTerminalCode_of_text (by decide +kernel)) rfl
  · rw [if_neg hempty]
    exact .of_eq rfl rfl

theorem Clone.traces_updateHeld (d : Clone) (claim : ClaimedSitePage)
    (set : SitePage → SitePage) : d.Traces (d.updateHeld claim set) :=
  .of_eq rfl rfl

theorem Clone.traces_leasePhase (d : Clone) (now : Instant) (workerId : Uuid) (lease : Duration)
    (status : JobStatus) : d.Traces (d.leasePhase now workerId lease status) :=
  .of_eq rfl rfl

theorem Clone.traces_publish (d : Clone) (now : Instant) (claim : ClaimedSitePhase)
    (artifacts : List SiteArtifactInput) : d.Traces (d.publish now claim artifacts) :=
  .of_eq rfl rfl

theorem Clone.traces_incrementJob (d : Clone) (now : Instant) (messageId : Uuid)
    (succeeded : Bool) (inputBytes : ℕ) :
    d.Traces (d.incrementJob now messageId succeeded inputBytes) := by
  have hcounted : d.Traces (d.increment now succeeded inputBytes) := .of_eq rfl rfl
  unfold Clone.incrementJob
  simp only []
  split
  · exact hcounted.withEvent now messageId .running
  · exact hcounted

theorem Clone.traces_failPage (d : Clone) (now : Instant) (messageId : Uuid)
    (claim : ClaimedSitePage) (code : String) :
    d.Traces (d.failPage now messageId claim code) := by
  have hfailed : d.Traces (d.updateHeld claim (SitePage.fail now claim code)) := .of_eq rfl rfl
  unfold Clone.failPage
  simp only []
  split
  · exact hfailed
  · exact hfailed.trans (Clone.traces_incrementJob _ now messageId false 0)

/-- The code of a phase that failed is stored. -/
theorem Clone.traced_abandonPhase (d : Clone) (now : Instant) (messageId : Uuid)
    (claim : ClaimedSitePhase) {code : String} (hcode : IsTerminalCode (some code)) :
    (d.abandonPhase now messageId claim code).job.Traced ∧
      d.Traces (d.abandonPhase now messageId claim code) := by
  have hretried : IsTerminalCode (d.retryPhase now claim code).job.terminalCode ∧
      (d.retryPhase now claim code).events = d.events := by
    unfold Clone.retryPhase
    by_cases hexhausted : claim.attemptCount ≥ 3
    · rw [if_pos hexhausted]
      exact ⟨hcode, rfl⟩
    · rw [if_neg hexhausted]
      exact ⟨hcode, rfl⟩
  have habandoned : d.Traces ((d.retryPhase now claim code).updateArtifacts
      (SiteArtifact.isStagedIn claim.leaseGeneration) (SiteArtifact.abandon now)) :=
    .of_code hretried.1 hretried.2
  unfold Clone.abandonPhase
  simp only []
  split
  · exact ⟨hretried.1, habandoned.withEvent now messageId .failed⟩
  · exact ⟨hretried.1, habandoned⟩

theorem Clone.traces_startReconcile (d : Clone) (now : Instant) :
    d.Traces (d.startReconcile now) := by
  have hcancelPages : ∀ e : Clone, d.Traces e →
      d.Traces (if e.job.status = .cancelRequested then e.cancelPages else e) := by
    intro e he
    split
    · exact he.trans (.of_eq rfl rfl)
    · exact he
  refine hcancelPages (if d.isOverdue now then d.exceedDeadline now else d) ?_
  split
  · exact .of_code (isTerminalCode_of_text (by decide +kernel)) rfl
  · exact .refl d

theorem Clone.traces_finishReconcile (d : Clone) (now : Instant) (messageId : Uuid) :
    d.Traces (d.finishReconcile now messageId) := by
  have hcode : d.job.Traced → ((d.refreshJobCounters now).reconcile now).job.Traced := by
    intro ht
    unfold SiteJob.Traced Clone.reconcile
    simp only []
    split
    · exact ht
    · split
      · exact isTerminalCode_of_text (by decide +kernel)
      · exact isTerminalCode_of_text (by decide +kernel)
  have hreconciled : d.Traces ((d.refreshJobCounters now).reconcile now) :=
    ⟨hcode, fun _ ↦ ⟨[], (List.append_nil _).symm, fun _ h ↦ absurd h List.not_mem_nil⟩⟩
  unfold Clone.finishReconcile
  simp only []
  split
  · exact hreconciled.withEvent now messageId _
  · exact hreconciled

theorem Clone.traces_finishDeletion (d : Clone) (now : Instant) (messageId artifactId : Uuid) :
    d.Traces (d.finishDeletion now messageId artifactId) := by
  have hdeleted : d.Traces (d.deleteArtifact artifactId) := .of_eq rfl rfl
  unfold Clone.finishDeletion
  simp only []
  split
  · have hexpired : d.Traces ((d.deleteArtifact artifactId).expire now) := .of_eq rfl rfl
    exact hexpired.withEvent now messageId .expired
  · exact hdeleted

/-- No step clears a code, and every event carries it. -/
theorem CaseStep.traces (h : CaseStep env now action c c') : c.clone.Traces c'.clone := by
  cases h with
  | ingestionFinished messageId =>
    exact (Clone.traces_finishIngestion _ now).withEvent now messageId _
  | pageOverBudget messageId =>
    exact (Clone.traces_updateHeld _ _ _).trans
      (Clone.traces_incrementJob _ now messageId false 0)
  | pageCompleted messageId =>
    exact (Clone.traces_updateHeld _ _ _).trans
      (Clone.traces_incrementJob _ now messageId true _)
  | pageFailed messageId => exact Clone.traces_failPage _ now messageId _ _
  | emptyFailed messageId =>
    have hfailed : c.clone.Traces (c.clone.failEmpty now) :=
      .of_code (isTerminalCode_of_text (by decide +kernel)) rfl
    exact hfailed.withEvent now messageId .failed
  | assemblyClaimed messageId =>
    exact (Clone.traces_leasePhase _ now _ _ .assembling).withEvent now messageId .assembling
  | staged _ _ hstages =>
    obtain ⟨added, heq, -⟩ := hstages.rows
    exact .of_eq (by rw [heq]) (by rw [heq])
  | restaged _ hstages =>
    obtain ⟨added, heq, -⟩ := hstages.rows
    exact .of_eq (by rw [heq]) (by rw [heq])
  | published messageId =>
    exact (Clone.traces_publish _ now _ _).withEvent now messageId _
  | ingestionRetried messageId =>
    exact (Clone.traced_abandonPhase _ now messageId _ (isTerminalCode_boundedCode env _)).2
  | assemblyRetried messageId =>
    exact (Clone.traced_abandonPhase _ now messageId _ (isTerminalCode_boundedCode env _)).2
  | reconcileStarted => exact Clone.traces_startReconcile _ now
  | reconciled messageId =>
    exact (Clone.traces_startReconcile _ now).trans
      (Clone.traces_finishReconcile _ now messageId)
  | artifactDeleted messageId => exact Clone.traces_finishDeletion _ now messageId _
  | pageClaimed hd =>
    rcases hd with rfl | ⟨keys, rfl⟩
    · exact .of_eq rfl rfl
    · exact .of_eq rfl rfl
  | _ => exact .of_eq rfl rfl

/-! ### Runs -/

/-- Every job is still there and keeps its code. -/
def System.Traces (sys sys' : System) : Prop :=
  ∀ d ∈ sys.store.clones, ∃ d' ∈ sys'.store.clones, d'.job.id = d.job.id ∧ d.Traces d'

theorem System.Keyed.traces_step (env : Env) {sys : System} (hkeyed : sys.Keyed)
    (action : Action) : sys.Traces (sys.step env action) := by
  intro d hd
  obtain ⟨d', hd', hid, hstep⟩ := hkeyed.exists_case env action hd
  exact ⟨d', hd', hid, hstep.traces⟩

theorem System.Keyed.traces_run (env : Env) {sys : System} (hkeyed : sys.Keyed)
    (actions : List Action) : sys.Traces (run (System.step env) sys actions) := by
  refine run_relation (P := System.Keyed) (fun _ action h ↦ h.step env action)
    (fun _ action h ↦ h.traces_step env action) (fun _ d hd ↦ ⟨d, hd, rfl, .refl d⟩) ?_ hkeyed
    actions
  intro first second third h h' d hd
  obtain ⟨d', hd', hid, ht⟩ := h d hd
  obtain ⟨d'', hd'', hid', ht'⟩ := h' d' hd'
  exact ⟨d'', hd'', hid'.trans hid, ht.trans ht'⟩

/-- The action records that a phase of the job failed and is tried again. -/
def Retries (env : Env) (id : Uuid) (sys : System) (action : Action) : Prop :=
  (∃ claim code, action = .retryIngestion claim code ∨ action = .retryAssembly claim code) ∧
    ∃ d ∈ sys.store.clones, ∃ d' ∈ (sys.step env action).store.clones,
      d.job.id = id ∧ d'.job.id = id ∧ d'.job.phaseAttemptCount = d.job.phaseAttemptCount + 1

/-- The action ends the ingestion or the assembly of the job with success. -/
def Succeeds (env : Env) (id : Uuid) (sys : System) (action : Action) : Prop :=
  ((∃ claim, action = .finishIngestion claim) ∨ ∃ assembly, action = .publishArtifacts assembly) ∧
    ∃ d ∈ sys.store.clones, ∃ d' ∈ (sys.step env action).store.clones,
      d.job.id = id ∧ d'.job.id = id ∧ d'.job.status ≠ d.job.status ∧ d'.job.status ≠ .failed

/-- The owner has cancelled the job, or it has exceeded its deadline, in the course of a run. -/
def Excepted (env : Env) (id : Uuid) (actions : List Action) : Prop :=
  ∃ first rest, actions = first ++ rest ∧ ∃ d ∈ (System.after env first).store.clones,
    d.job.id = id ∧ (d.job.status = .cancelRequested ∨ d.job.status = .cancelled ∨
      d.isOverdue (System.after env first).now = true)

/-- The events that a clone has more than it had before. -/
def Clone.eventsSince (before after : Clone) : List SiteCloneEventEnvelope :=
  after.events.drop before.events.length

/-- The further events of a clone carry no terminal code or message, and applying them to a request
that has none gives it none. -/
structure Clone.Traceless (before after : Clone) : Prop where
  events : ∀ event ∈ before.eventsSince after,
    event.payload.terminalCode = none ∧ event.payload.terminalMessage = none
  request : ∀ request : SiteCloneRequest,
    request.terminalCode = none → request.terminalMessage = none →
      (request.receiveAll (before.eventsSince after)).terminalCode = none ∧
        (request.receiveAll (before.eventsSince after)).terminalMessage = none

/-- The actions `rest`, done after the actions `before`, report the job without a trace. -/
def ReportsTraceless (env : Env) (id : Uuid) (before rest : List Action) : Prop :=
  ∀ d ∈ (System.after env before).store.clones,
    ∀ d' ∈ (System.after env (before ++ rest)).store.clones,
      d.job.id = id → d'.job.id = id → d.Traceless d'

theorem CaseStep.traced_of_retry (h : CaseStep env now action c c')
    (hretry : ∃ claim code, action = .retryIngestion claim code ∨
      action = .retryAssembly claim code)
    (hattempts : c'.clone.job.phaseAttemptCount = c.clone.job.phaseAttemptCount + 1) :
    c'.clone.job.Traced := by
  obtain ⟨claim, code, rfl | rfl⟩ := hretry
  · cases h with
    | same => exact absurd hattempts (Nat.succ_ne_self _).symm
    | ingestionRetried messageId =>
      exact (Clone.traced_abandonPhase _ now messageId _ (isTerminalCode_boundedCode env _)).1
  · cases h with
    | same => exact absurd hattempts (Nat.succ_ne_self _).symm
    | assemblyRetried messageId =>
      exact (Clone.traced_abandonPhase _ now messageId _ (isTerminalCode_boundedCode env _)).1

theorem CaseStep.event_of_success (h : CaseStep env now action c c')
    (hsuccess : (∃ claim, action = .finishIngestion claim) ∨
      ∃ assembly, action = .publishArtifacts assembly)
    (hstatus : c'.clone.job.status ≠ c.clone.job.status) :
    c.clone.events.length < c'.clone.events.length := by
  rcases hsuccess with ⟨claim, rfl⟩ | ⟨assembly, rfl⟩
  · cases h with
    | same => exact absurd rfl hstatus
    | ingestionFinished messageId =>
      have hevents : (c.clone.finishIngestion now).events = c.clone.events := by
        unfold Clone.finishIngestion
        split <;> rfl
      show _ < ((c.clone.finishIngestion now).events ++ [_]).length
      rw [List.length_append, hevents]
      exact Nat.lt_succ_self _
  · cases h with
    | same => exact absurd rfl hstatus
    | published messageId =>
      show _ < (c.clone.events ++ [_]).length
      rw [List.length_append]
      exact Nat.lt_succ_self _

/-- The case step of a job between the clones that show it before and after. -/
theorem System.caseStep_after (env : Env) (actions : List Action) (action : Action) {id : Uuid}
    {d d' : Clone} (hd : d ∈ (System.after env actions).store.clones)
    (hd' : d' ∈ ((System.after env actions).step env action).store.clones)
    (hid : d.job.id = id) (hid' : d'.job.id = id) :
    CaseStep env (System.after env actions).now action ((System.after env actions).case d)
      (((System.after env actions).step env action).case d') := by
  have hkeyed := System.keyed_after env actions
  obtain ⟨d'', hd'', hid'', hstep⟩ := hkeyed.exists_case env action hd
  have hsame : d'' = d' :=
    (hkeyed.step env action).store.eq hd'' hd' (hid''.trans (hid.trans hid'.symm))
  rwa [hsame] at hstep

/-- A job whose phase was retried carries a code ever after. -/
theorem traced_of_retries {env : Env} {id : Uuid} {before : List Action} {retry : Action}
    (between : List Action) (h : Retries env id (System.after env before) retry) :
    ∀ d ∈ (System.after env (before ++ retry :: between)).store.clones, d.job.id = id →
      d.job.Traced := by
  obtain ⟨hretry, d₀, hd₀, d₁, hd₁, hid₀, hid₁, hattempts⟩ := h
  have htraced := (System.caseStep_after env before retry hd₀ hd₁ hid₀ hid₁).traced_of_retry
    hretry hattempts
  have hkeyed₁ := (System.keyed_after env before).step env retry
  obtain ⟨d₂, hd₂, hid₂, htraces⟩ := hkeyed₁.traces_run env between d₁ hd₁
  have hrun : System.after env (before ++ retry :: between) =
      run (System.step env) ((System.after env before).step env retry) between := by
    unfold System.after
    rw [run_append, run_cons]
  intro d hd hid
  rw [hrun] at hd
  have hsame : d = d₂ := (hrun ▸ System.keyed_after env (before ++ retry :: between)).store.eq hd
    hd₂ (hid.trans (hid₂.trans hid₁).symm)
  rw [hsame]
  exact htraces.job htraced

/-- The first event after the retried phase has succeeded carries a terminal code. -/
theorem traced_event_of_success {env : Env} {id : Uuid} {actions : List Action}
    {success : Action} (rest : List Action) (h : Succeeds env id (System.after env actions) success)
    (htraced : ∀ d ∈ (System.after env actions).store.clones, d.job.id = id → d.job.Traced) :
    ∃ d ∈ (System.after env actions).store.clones,
      ∃ d' ∈ (System.after env (actions ++ success :: rest)).store.clones,
        d.job.id = id ∧ d'.job.id = id ∧
          (∃ event, event ∈ d.eventsSince d') ∧ ∀ event ∈ d.eventsSince d',
            IsTerminalCode event.payload.terminalCode := by
  obtain ⟨hsuccess, d, hd, d₁, hd₁, hid, hid₁, hstatus, -⟩ := h
  have hgrows := (System.caseStep_after env actions success hd hd₁ hid hid₁).event_of_success
    hsuccess hstatus
  have hkeyed := System.keyed_after env actions
  have hrun : System.after env (actions ++ success :: rest) =
      run (System.step env) (System.after env actions) (success :: rest) := by
    unfold System.after
    rw [run_append]
  obtain ⟨d₂, hd₂, hid₂, htraces⟩ := (hkeyed.step env success).traces_run env rest d₁ hd₁
  have hstep := (System.caseStep_after env actions success hd hd₁ hid hid₁).traces
  have hall : d.Traces d₂ := hstep.trans htraces
  have ht := htraced d hd hid
  obtain ⟨added, hevents, hcodes⟩ := hall.events ht
  obtain ⟨more, hmore, -⟩ := htraces.events (hstep.job ht)
  have hsince : d.eventsSince d₂ = added := by
    unfold Clone.eventsSince
    rw [hevents]
    exact List.drop_left
  refine ⟨d, hd, d₂, hrun ▸ hd₂, hid, hid₂.trans hid₁, ?_, hsince ▸ hcodes⟩
  rw [hsince]
  refine List.exists_mem_of_length_pos ?_
  have hlength := congrArg List.length (hevents.symm.trans hmore)
  rw [List.length_append, List.length_append] at hlength
  have hgrows : d.events.length < d₁.events.length := hgrows
  omega

/-- In a run in which a phase of the job fails and is retried and a phase then succeeds, what is
reported afterwards is never without a trace: the requirement is met by those runs alone that it
excepts. -/
theorem retry_traceless_iff (env : Env) (id : Uuid) (before : List Action) (retry : Action)
    (between : List Action) (success : Action) (rest : List Action)
    (hretried : Retries env id (System.after env before) retry)
    (hsucceeded : Succeeds env id (System.after env (before ++ retry :: between)) success) :
    (¬ Excepted env id (before ++ retry :: between ++ success :: rest) →
        ReportsTraceless env id (before ++ retry :: between) (success :: rest)) ↔
      Excepted env id (before ++ retry :: between ++ success :: rest) := by
  constructor
  · intro h
    by_contra hnot
    obtain ⟨d, hd, d', hd', hid, hid', ⟨event, hevent⟩, hcodes⟩ :=
      traced_event_of_success rest hsucceeded (traced_of_retries between hretried)
    obtain ⟨text, hcode, -⟩ := hcodes event hevent
    have hnone := ((h hnot d hd d' hd' hid hid').events event hevent).1
    rw [hcode] at hnone
    exact Option.some_ne_none text hnone
  · intro h hnot
    exact absurd h hnot

/-- A request of the Control Plane that ends with what such a run reports ends with a code. -/
theorem explained_of_success {env : Env} {id : Uuid} {before between rest : List Action}
    {retry success : Action} (hretried : Retries env id (System.after env before) retry)
    (hsucceeded : Succeeds env id (System.after env (before ++ retry :: between)) success)
    {request : SiteCloneRequest} (hrequest : request.Explained) :
    ∃ d ∈ (System.after env (before ++ retry :: between)).store.clones,
      ∃ d' ∈ (System.after env (before ++ retry :: between ++ success :: rest)).store.clones,
        d.job.id = id ∧ d'.job.id = id ∧
          (request.receiveAll (d.eventsSince d')).Explained := by
  obtain ⟨d, hd, d', hd', hid, hid', -, hcodes⟩ :=
    traced_event_of_success rest hsucceeded (traced_of_retries between hretried)
  exact ⟨d, hd, d', hd', hid, hid', hrequest.receiveAll hcodes⟩

/-! ### An ingestion that succeeds at the second try -/

/-- The second claim of the ingestion of the sample job. -/
def ClaimedSitePhase.second : ClaimedSitePhase :=
  { ClaimedSitePhase.sample 2 with attemptCount := 2 }

/-- The assembly of the sample job, whose phase is leased for the third time. -/
def Assembly.third : Assembly :=
  { Assembly.sample with claim := .sample 3 }

def startOfRetriedRun : List Action := [
  .acceptCommand (.requested .sample),
  .claimIngestion [] 307]

def middleOfRetriedRun : List Action := [
  .tick (2 * Capture.second),
  .claimIngestion [] 307,
  .addTargets .second [.sample]]

def endOfRetriedRun : List Action := [
  .claimPage {} 307,
  .completePage .sample "weblens" 1 (List.replicate 32 0) 1,
  .claimAssembly {} 307,
  .stageArtifacts .third,
  .copyArtifact .third (.artifact 304 302 3 "site.zip"),
  .verifyArtifacts .third,
  .restageArtifacts .third,
  .publishArtifacts .third]

def retriedIngestion : Action :=
  .retryIngestion (.sample 1) "ETIMEDOUT"

/-- The whole run: the ingestion times out once, and the archive is published. -/
def retriedRun : List Action :=
  startOfRetriedRun ++ retriedIngestion :: middleOfRetriedRun ++
    .finishIngestion .second :: endOfRetriedRun

/-- The request of the Control Plane for the sample job. -/
def requestOfSample : SiteCloneRequest where
  id := 302
  ownerId := 304
  websiteId := 308
  scanId := 305
  status := .queued
  targetUrl := "https://example.com/"
  idempotencyKeyHash := ""
  requestFingerprintHash := ""

theorem retries_retriedRun :
    Retries .sample 302 (System.after .sample startOfRetriedRun) retriedIngestion :=
  ⟨⟨.sample 1, "ETIMEDOUT", .inl rfl⟩, by decide +kernel⟩

theorem succeeds_retriedRun : Succeeds .sample 302
    (System.after .sample (startOfRetriedRun ++ retriedIngestion :: middleOfRetriedRun))
    (.finishIngestion .second) :=
  ⟨.inl ⟨.second, rfl⟩, by decide +kernel⟩

theorem not_excepted_retriedRun : ¬ Excepted .sample 302 retriedRun := by
  rintro ⟨first, rest, heq, d, hd, -, hexcepted⟩
  have hall : ∀ first ∈ retriedRun.inits, ∀ d ∈ (System.after .sample first).store.clones,
      d.job.status ≠ .cancelRequested ∧ d.job.status ≠ .cancelled ∧
        d.isOverdue (System.after .sample first).now = false := by
    decide +kernel
  obtain ⟨hrequested, hcancelled, hoverdue⟩ :=
    hall first ((List.mem_inits _ _).2 ⟨rest, heq.symm⟩) d hd
  rcases hexcepted with h | h | h
  · exact hrequested h
  · exact hcancelled h
  · exact Bool.noConfusion (hoverdue.symm.trans h)

theorem retry_traceless_iff_retriedRun :
    (¬ Excepted .sample 302 retriedRun →
      ReportsTraceless .sample 302
        (startOfRetriedRun ++ retriedIngestion :: middleOfRetriedRun)
        (.finishIngestion .second :: endOfRetriedRun)) ↔
      Excepted .sample 302 retriedRun :=
  retry_traceless_iff .sample 302 startOfRetriedRun retriedIngestion middleOfRetriedRun
    (.finishIngestion .second) endOfRetriedRun
    ⟨⟨.sample 1, "ETIMEDOUT", .inl rfl⟩, by decide +kernel⟩
    ⟨.inl ⟨.second, rfl⟩, by decide +kernel⟩

/-- The job is neither cancelled nor overdue, yet its events carry the code of the first try, and
the published request stores it. -/
theorem retried_ingestion_reported :
    ¬ (¬ Excepted .sample 302 retriedRun →
      ReportsTraceless .sample 302
        (startOfRetriedRun ++ retriedIngestion :: middleOfRetriedRun)
        (.finishIngestion .second :: endOfRetriedRun)) ∧
    ∃ d ∈ (System.after .sample retriedRun).store.clones,
      (requestOfSample.receiveAll d.events).status = .published ∧
        (requestOfSample.receiveAll d.events).terminalCode = some "ETIMEDOUT" := by
  constructor
  · intro h
    have htraceless := h not_excepted_retriedRun
    obtain ⟨d, hd, d', hd', hid, hid', ⟨event, hevent⟩, hcodes⟩ :=
      traced_event_of_success endOfRetriedRun succeeds_retriedRun
        (traced_of_retries middleOfRetriedRun retries_retriedRun)
    obtain ⟨text, hcode, -⟩ := hcodes event hevent
    have hnone := ((htraceless d hd d' hd' hid hid').events event hevent).1
    rw [hcode] at hnone
    exact Option.some_ne_none text hnone
  · decide +kernel

end WebLens.SiteClone
