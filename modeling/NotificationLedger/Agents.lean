import NotificationLedger.AgentTools

/-!
# Agents beside the system

An agent calls its tools between any two steps of the system, and forwards whoever it acts for. The
system with agents refines the system: every call of a tool stands for one retry by its caller at
most, and for nothing where it reads. Without the role of an administrator an agent neither changes
nor learns anything, and the classes of the tools in the catalog are exact.

## The refinement

`Lowers` relates a history with tool calls to the commands it stands for: a retry that can be read
becomes a retry of the forwarded caller, and everything else vanishes. The state is that of the
plain system throughout, so the lowered history starts and ends where the other one does, and each
result about histories holds with agents as well.
-/

namespace NotificationLedger

namespace AgentTools

/-- The system with agents, who call tools between its steps. -/
def toolSystem (S : Setting) (fromStr : String → Option Json) (toStringPretty : Json → String) :
    Lts System ((Command × Reply) ⊕ (ToolCall × ToolAnswer)) where
  Start s := s = System.empty
  Step s l s' :=
    match l with
    | .inl l => (system S).Step s l s'
    | .inr (call, answer) =>
      execute fromStr toStringPretty (call.admin S) call.request s = some (s', answer)

/-- What a step of the system with agents is in the system: a command is itself, a call of the retry
tool is a retry of its caller, and any other call of a tool is nothing. -/
inductive Lowers (S : Setting) (fromStr : String → Option Json) (toStringPretty : Json → String) :
    (Command × Reply) ⊕ (ToolCall × ToolAnswer) → List (Command × Reply) → Prop
  | command (l : Command × Reply) : Lowers S fromStr toStringPretty (.inl l) [l]
  | retry {call : ToolCall} {arguments : RetryDeliveryRequest}
      {result : Except (PluginError RetryDeliveryError) RetryResult}
      (hname : call.request.name = retryDeliveryTool)
      (hread : (fromStr call.request.argumentsJson).bind RetryDeliveryRequest.decode =
        some arguments) :
      Lowers S fromStr toStringPretty
        (.inr (call, (Called.retried (toldRetry S call.now result)).answer toStringPretty))
        [(.retryDelivery call.caller arguments call.now, .retry result)]
  | nothing {call : ToolCall} {answer : ToolAnswer}
      (h : call.request.name = retryDeliveryTool →
        (fromStr call.request.argumentsJson).bind RetryDeliveryRequest.decode = none) :
      Lowers S fromStr toStringPretty (.inr (call, answer)) []

section Lowering

variable {S : Setting} {fromStr : String → Option Json} {toStringPretty : Json → String}
  {s s' : System} {call : ToolCall}

theorem retryDelivery_iff {arguments : RetryDeliveryRequest}
    {outcome : Told RetryDeliveryError Plugin.RetryDeliveryResponse} :
    (call.admin S).retryDelivery arguments s = some (s', outcome) ↔
      ∃ result, (system S).Step s
          (.retryDelivery call.caller arguments call.now, .retry result) s' ∧
        outcome = toldRetry S call.now result := by
  change (if s.Unlocked _ then _ else none) = _ ↔
    ∃ result, s.once (Plugin.retryDeliveryLocks S s.ledger call.caller arguments)
      (Plugin.retryDelivery S s.ledger call.caller arguments call.now) .retry =
        some (s', .retry result) ∧ _
  unfold System.once
  by_cases hfree : s.Unlocked (Plugin.retryDeliveryLocks S s.ledger call.caller arguments)
  swap
  · simp only [if_neg hfree, reduceCtorEq, false_and, exists_false]
  rw [if_pos hfree, if_pos hfree]
  cases hretry : Plugin.retryDelivery S s.ledger call.caller arguments call.now with
  | error e =>
    constructor
    · intro h
      cases h
      exact ⟨.error e, rfl, rfl⟩
    · rintro ⟨result, h, rfl⟩
      cases h
      rfl
  | ok p =>
    obtain ⟨L, result⟩ := p
    constructor
    · intro h
      obtain ⟨t, ht, hpair⟩ := Option.map_eq_some_iff.mp h
      cases hpair
      exact ⟨.ok result, Option.map_eq_some_iff.mpr ⟨_, ht, rfl⟩, rfl⟩
    · rintro ⟨result', h, rfl⟩
      obtain ⟨t, ht, hpair⟩ := Option.map_eq_some_iff.mp h
      cases hpair
      exact Option.map_eq_some_iff.mpr ⟨_, ht, rfl⟩

theorem exists_call {σ ρ ε α : Type} {tool : String} {decode : Json → Option ρ}
    {operation : ρ → σ → Option (σ × Told ε α)} {encode : α → Json}
    {mapError : DomainError ε → ExecuteError} {request : ExecuteRequest} {s : σ}
    (h : ∀ arguments, ∃ outcome, operation arguments s = some (s, outcome)) :
    ∃ answer, AgentTools.call fromStr toStringPretty tool decode operation encode mapError
      request s = some (s, answer) := by
  unfold AgentTools.call
  split
  · exact ⟨_, rfl⟩
  · next arguments _ =>
    obtain ⟨outcome, houtcome⟩ := h arguments
    exact ⟨_, Option.map_eq_some_iff.mpr ⟨_, houtcome, rfl⟩⟩

/-- The tools that read, and the unknown ones, return and leave the state as it is. -/
theorem exists_execute (s : System) (h : call.request.name ≠ retryDeliveryTool) :
    ∃ answer, execute fromStr toStringPretty (call.admin S) call.request s = some (s, answer) := by
  rcases tool_cases call.request.name with hname | hname | hname | hname
  · rw [execute_list hname]
    exact exists_call fun _ ↦ ⟨_, rfl⟩
  · rw [execute_get hname]
    exact exists_call fun _ ↦ ⟨_, rfl⟩
  · exact absurd hname h
  · exact ⟨_, execute_unknown hname⟩

theorem lowers_of_step {l : (Command × Reply) ⊕ (ToolCall × ToolAnswer)}
    (h : (toolSystem S fromStr toStringPretty).Step s l s') :
    ∃ ms, Lowers S fromStr toStringPretty l ms ∧ (system S).Run s ms s' := by
  rcases l with l | ⟨call, answer⟩
  · exact ⟨[l], .command l, .single h⟩
  change execute fromStr toStringPretty (call.admin S) call.request s = some (s', answer) at h
  by_cases hname : call.request.name = retryDeliveryTool
  · rw [execute_retry hname, AgentTools.call] at h
    cases hread : (fromStr call.request.argumentsJson).bind RetryDeliveryRequest.decode with
    | none =>
      rw [hread] at h
      cases h
      exact ⟨[], .nothing fun _ ↦ hread, .nil⟩
    | some arguments =>
      rw [hread] at h
      obtain ⟨⟨t, outcome⟩, ho, hpair⟩ := Option.map_eq_some_iff.mp h
      obtain ⟨rfl, rfl⟩ := Prod.mk.inj hpair
      obtain ⟨result, hstep, rfl⟩ := retryDelivery_iff.mp ho
      exact ⟨_, .retry hname hread, .single hstep⟩
  · obtain ⟨answer', hexec⟩ := exists_execute (S := S) s hname
    cases hexec.symm.trans h
    exact ⟨[], .nothing fun h ↦ absurd h hname, .nil⟩

/-- **Agents do nothing that an administrator could not.** A history with agents is a history of the
system, in which every call of a tool stands for one retry by its caller at most. -/
theorem lowered_of_history {ls : List ((Command × Reply) ⊕ (ToolCall × ToolAnswer))}
    (h : (toolSystem S fromStr toStringPretty).History ls s) :
    ∃ mss, List.Forall₂ (Lowers S fromStr toStringPretty) ls mss ∧
      (system S).History mss.flatten s := by
  refine Lts.History.invariant (S := toolSystem S fromStr toStringPretty)
    (I := fun ls s ↦ ∃ mss, List.Forall₂ (Lowers S fromStr toStringPretty) ls mss ∧
      (system S).History mss.flatten s) ?_ ?_ h
  · rintro s rfl
    exact ⟨[], .nil, .nil rfl⟩
  · rintro ls s l s' - ⟨mss, hmss, hhistory⟩ hstep
    obtain ⟨ms, hms, hrun⟩ := lowers_of_step hstep
    refine ⟨mss ++ [ms], List.rel_append hmss (.cons hms .nil), ?_⟩
    rw [List.flatten_append, List.flatten_singleton]
    exact hhistory.append hrun

/-- Nobody has to call a tool. -/
theorem history_of_system {ls : List (Command × Reply)} (h : (system S).History ls s) :
    (toolSystem S fromStr toStringPretty).History (ls.map .inl) s := by
  refine Lts.History.invariant (S := system S)
    (I := fun ls s ↦ (toolSystem S fromStr toStringPretty).History (ls.map .inl) s) ?_ ?_ h
  · rintro s rfl
    exact .nil rfl
  · intro ls s l s' _ ih hstep
    rw [List.map_append]
    exact ih.snoc hstep

end Lowering

/-- An agent retries after the first attempt was refused. -/
theorem lowered_of_history_agentRetry :
    ∃ ls s, (toolSystem Deployment.setting Deployment.fromStr Deployment.toStringPretty).History
        (ls ++ [.inr (Deployment.agentRetry, Deployment.retryAnswer)]) s ∧
      ∃ mss, List.Forall₂
          (Lowers Deployment.setting Deployment.fromStr Deployment.toStringPretty)
          (ls ++ [.inr (Deployment.agentRetry, Deployment.retryAnswer)]) mss ∧
        (system Deployment.setting).History mss.flatten s := by
  obtain ⟨ls, s, t, hls, -, hretry⟩ := Deployment.exists_history_retries
  have hstep : (toolSystem Deployment.setting Deployment.fromStr Deployment.toStringPretty).Step s
      (.inr (Deployment.agentRetry, Deployment.retryAnswer)) t := by
    change execute _ _ _ _ _ = _
    rw [execute_eq_map, called_agentRetry hretry]
    rfl
  have hhistory := (history_of_system hls).snoc hstep
  exact ⟨_, t, hhistory, lowered_of_history hhistory⟩

/-! ## Callers that are no administrators

Their calls end at the first check of the operation, which reads the configuration only. So they are
idle, and the answer is that of a client that refuses everything. -/

/-- A client that is always refused. -/
def refusing : AdminClient Unit where
  listDeliveries _ s := some (s, .error (.domain (.known .unauthorized)))
  getDelivery _ s := some (s, .error (.domain (.known .unauthorized)))
  retryDelivery _ s := some (s, .error (.domain (.known .unauthorized)))

/-- The step is a command, or a tool was called for an administrator. -/
def ofAdministrator (S : Setting) : (Command × Reply) ⊕ (ToolCall × ToolAnswer) → Bool
  | .inl _ => true
  | .inr (call, _) => (authorizedCaller call.caller S.config.adminCallers).isSome

/-- The answer of a tool is the one that refuses the request. -/
def Refused (fromStr : String → Option Json) (toStringPretty : Json → String) :
    (Command × Reply) ⊕ (ToolCall × ToolAnswer) → Prop
  | .inl _ => True
  | .inr (call, answer) =>
    execute fromStr toStringPretty refusing call.request () = some ((), answer)

section Refusal

variable {S : Setting} {fromStr : String → Option Json} {toStringPretty : Json → String}
  {s s' : System}

theorem call_of_refused {σ ρ ε α : Type} {tool : String} {decode : Json → Option ρ}
    {operation : ρ → σ → Option (σ × Told ε α)}
    {refusal : ρ → Unit → Option (Unit × Told ε α)} {encode : α → Json}
    {mapError : DomainError ε → ExecuteError} {request : ExecuteRequest} {s : σ}
    {refused : Told ε α} (h : ∀ arguments, operation arguments s = some (s, refused))
    (hrefusal : ∀ arguments, refusal arguments () = some ((), refused)) :
    AgentTools.call fromStr toStringPretty tool decode operation encode mapError request s =
      (AgentTools.call fromStr toStringPretty tool decode refusal encode mapError request ()).map
        fun p ↦ (s, p.2) := by
  unfold AgentTools.call
  split
  · rfl
  · next arguments _ =>
    rw [h, hrefusal]
    rfl

/-- Where the caller is no administrator, the answer depends on the request alone. -/
theorem execute_of_not_administrator {call : ToolCall} (s : System)
    (h : authorizedCaller call.caller S.config.adminCallers = none) :
    execute fromStr toStringPretty (call.admin S) call.request s =
      (execute fromStr toStringPretty refusing call.request ()).map fun p ↦ (s, p.2) := by
  rcases tool_cases call.request.name with hname | hname | hname | hname
  · rw [execute_list hname, execute_list hname]
    refine call_of_refused (fun arguments ↦ ?_) fun _ ↦ rfl
    simp only [ToolCall.admin, Plugin.listDeliveries, h]
    rfl
  · rw [execute_get hname, execute_get hname]
    refine call_of_refused (fun arguments ↦ ?_) fun _ ↦ rfl
    simp only [ToolCall.admin, Plugin.getDelivery, h]
    rfl
  · rw [execute_retry hname, execute_retry hname]
    refine call_of_refused (fun arguments ↦ ?_) fun _ ↦ rfl
    simp only [ToolCall.admin, retryDeliveryLocks_of_unauthorized h, if_pos unlocked_nil,
      Plugin.retryDelivery, h]
    rfl
  · rw [execute_unknown hname, execute_unknown hname]
    rfl

theorem idles_of_not_administrator :
    (toolSystem S fromStr toStringPretty).Idles (ofAdministrator S)
      (Refused fromStr toStringPretty) := by
  rintro s (l | ⟨call, answer⟩) s' hother
  · cases hother
  rw [ofAdministrator, Option.isSome_eq_false_iff, Option.isNone_iff_eq_none] at hother
  change execute fromStr toStringPretty (call.admin S) call.request s = some (s', answer) ↔ _
  rw [execute_of_not_administrator s hother, Option.map_eq_some_iff]
  constructor
  · rintro ⟨⟨u, a⟩, hexec, hpair⟩
    cases hpair
    exact ⟨rfl, hexec⟩
  · rintro ⟨rfl, hexec⟩
    exact ⟨_, hexec, rfl⟩

/-- **An agent without the role does not interfere and learns nothing.** The steps lead from one
state to another exactly when they do so without its calls, and the answer to each of these is fixed
by its request. -/
theorem run_iff_ofAdministrator {ls : List ((Command × Reply) ⊕ (ToolCall × ToolAnswer))} :
    (toolSystem S fromStr toStringPretty).Run s ls s' ↔
      (toolSystem S fromStr toStringPretty).Run s (ls.filter (ofAdministrator S)) s' ∧
        ∀ l ∈ ls, ofAdministrator S l = false → Refused fromStr toStringPretty l :=
  idles_of_not_administrator.run_iff

end Refusal

/-! ## What the catalog promises

Reads answer in every state and leave it alone; a retry that goes through does not. -/

/-- **The classes of the catalog are exact.** A tool is classed as parallel-safe exactly when each
of its calls returns in every state and leaves it as it is. -/
theorem execution_eq_parallelSafe_iff {tool : ToolDefinition} (h : tool ∈ toolDefinitions) :
    tool.execution = .parallelSafe ↔
      ∀ (S : Setting) (fromStr : String → Option Json) (toStringPretty : Json → String)
        (s : System) (call : ToolCall), (system S).Reachable s → call.request.name = tool.name →
          ∃ answer, (toolSystem S fromStr toStringPretty).Step s (.inr (call, answer)) s := by
  constructor
  · intro hsafe S fromStr toStringPretty s call _ hname
    refine exists_execute s fun hretry ↦ ?_
    rw [hname] at hretry
    simp only [toolDefinitions, List.mem_cons, List.not_mem_nil, or_false] at h
    rcases h with rfl | rfl | rfl
    · exact absurd hretry (by decide)
    · exact absurd hretry (by decide)
    · cases hsafe
  · intro hidle
    simp only [toolDefinitions, List.mem_cons, List.not_mem_nil, or_false] at h
    rcases h with rfl | rfl | rfl
    · rfl
    · rfl
    · -- a retry that is scheduled changes the delivery
      obtain ⟨ls, s, t, hls, hne, hretry⟩ := Deployment.exists_history_retries
      obtain ⟨answer, hstep⟩ := hidle Deployment.setting Deployment.fromStr
        Deployment.toStringPretty s Deployment.agentRetry ⟨ls, hls⟩ rfl
      change execute _ _ _ _ _ = _ at hstep
      rw [execute_eq_map, called_agentRetry hretry, Option.map_some, Option.some_inj,
        Prod.mk.injEq] at hstep
      exact absurd hstep.1 hne

/-- A list without a filter. -/
def agentList : ToolCall :=
  { Deployment.agentRetry with
    request := { name := listDeliveriesTool, argumentsJson := Deployment.listText } }

/-- A delivery is listed while it is attempted. -/
theorem execution_eq_parallelSafe_iff_awaiting :
    ∃ answer response, Plugin.listDeliveries Deployment.setting Deployment.awaiting.ledger
        (some "admin") ⟨none, none, none⟩ = .ok response ∧ response.records.length = 1 ∧
      (toolSystem Deployment.setting Deployment.fromStr Deployment.toStringPretty).Step
        Deployment.awaiting (.inr (agentList, answer)) Deployment.awaiting ∧
      answer = .ok (success Deployment.toStringPretty listDeliveriesTool response.encode) := by
  obtain ⟨answer, hstep⟩ := (execution_eq_parallelSafe_iff List.mem_cons_self).mp rfl
    Deployment.setting Deployment.fromStr Deployment.toStringPretty Deployment.awaiting agentList
    Deployment.reachable_awaiting rfl
  have hlisted : (match Plugin.listDeliveries Deployment.setting Deployment.awaiting.ledger
      (some "admin") ⟨none, none, none⟩ with
      | .ok response => decide (response.records.length = 1)
      | .error _ => false) = true := by decide +kernel
  split at hlisted
  · next response hread =>
    refine ⟨answer, response, hread, of_decide_eq_true hlisted, hstep, ?_⟩
    change execute _ _ _ _ _ = _ at hstep
    have harguments : (Deployment.fromStr agentList.request.argumentsJson).bind
        Plugin.ListDeliveriesRequest.decode = some ⟨none, none, none⟩ := by
      change (Deployment.fromStr Deployment.listText).bind _ = _
      rw [Deployment.fromStr, if_neg (by decide +kernel), if_pos rfl]
      rfl
    rw [execute_list rfl, AgentTools.call, harguments] at hstep
    change some (_, tell _ _ _ _ ((Plugin.listDeliveries _ _ (some "admin") _).mapError _)) = _
      at hstep
    rw [hread] at hstep
    cases hstep
    rfl
  · cases hlisted

end AgentTools

end NotificationLedger
