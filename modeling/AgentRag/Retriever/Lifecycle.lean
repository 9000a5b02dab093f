import AgentRag.Retriever.Retriever

/-!
# What every history of an `AgentRAGRetriever` keeps

Two facts about whole runs, each from what one `step` can do:

- the configuration stays consistent: `config` passes `Validate`, the merger
  holds the same config, and both `TemporalDecay`s are built from it
  (`Consistent`); a rejected `UpdateConfig` changes nothing;
- `Close` is final: afterwards every guarded method returns
  `ErrClosedRetriever` without a client call, before it none does, and the
  client is closed once however often `Close` is called.

`step_cases` says once which methods change the state; every invariant is
then a case analysis on it. A method's client calls are part of what it
returns, so the guard that answers `ErrClosedRetriever` is the one that
calls nothing (`step_of_closed`).
-/

namespace AgentRag.Retriever

variable {F : Type} [LinearOrderedField F] (P : Platform F)

/-- What every reachable retriever satisfies. -/
structure AgentRAGRetriever.Consistent (r : AgentRAGRetriever F) : Prop where
  config_valid : r.config.validate = none
  merger_config : r.merger.config = r.config
  merger_decay : r.merger.temporalDecay = TemporalDecay.ofConfig r.config
  decay : r.temporalDecay = TemporalDecay.ofConfig r.config

/-! ## One step -/

/-- Only `UpdateConfig` and `Close` change the state. -/
theorem AgentRAGRetriever.step_cases (r : AgentRAGRetriever F) (op : Op F) :
    (r.step P op).2.1 = r ∨ (∃ config, op = .updateConfig config ∧
      (r.step P op).2.1 = (r.updateConfig config).1) ∨ (op = .close ∧ (r.step P op).2.1 = r.close.1) := by
  cases op
  case updateConfig config => exact .inr (.inl ⟨config, rfl, rfl⟩)
  case close => exact .inr (.inr ⟨rfl, rfl⟩)
  all_goals exact .inl rfl

theorem newAgentRAGRetriever_consistent {host apiKey : String} {mc : Option (MergeConfig F)}
    {ic : Option IndexConfig} {r : AgentRAGRetriever F}
    (h : newAgentRAGRetriever host apiKey mc ic = .ok r) : r.Consistent ∧ r.closed = false := by
  unfold newAgentRAGRetriever at h
  dsimp only at h
  split at h
  · cases h
  · rename_i hv
    simp only [newWeaviateClient, newResultMerger, hv, Except.ok.injEq] at h
    subst h
    exact ⟨⟨hv, rfl, rfl, rfl⟩, rfl⟩

/-- A valid config replaces all four; an invalid one changes nothing. -/
theorem AgentRAGRetriever.updateConfig_eq (r : AgentRAGRetriever F) (config : MergeConfig F) :
    (config.validate = none ∧ (r.updateConfig config).2 = none ∧
      (r.updateConfig config).1 = { r with
        config := config
        merger := ⟨config, TemporalDecay.ofConfig config⟩
        temporalDecay := TemporalDecay.ofConfig config }) ∨
    (∃ err, config.validate = some err ∧ r.updateConfig config = (r, some err)) := by
  unfold AgentRAGRetriever.updateConfig ResultMerger.setConfig
  split
  · rename_i err h
    exact .inr ⟨err, h, rfl⟩
  · rename_i h
    exact .inl ⟨h, rfl, by simp only [h]; rfl⟩

/-- A rejected config leaves the retriever as it was. -/
theorem AgentRAGRetriever.updateConfig_of_error (r : AgentRAGRetriever F) {config : MergeConfig F}
    {err : GoError} (h : (r.updateConfig config).2 = some err) : (r.updateConfig config).1 = r := by
  rcases r.updateConfig_eq config with ⟨-, hnone, -⟩ | ⟨_, -, heq⟩
  · simp_all
  · rw [heq]

theorem AgentRAGRetriever.Consistent.updateConfig {r : AgentRAGRetriever F} (hr : r.Consistent)
    (config : MergeConfig F) : (r.updateConfig config).1.Consistent := by
  rcases r.updateConfig_eq config with ⟨hv, -, heq⟩ | ⟨err, -, heq⟩
  · rw [heq]
    exact ⟨hv, rfl, rfl, rfl⟩
  · rw [heq]
    exact hr

theorem AgentRAGRetriever.Consistent.close {r : AgentRAGRetriever F} (hr : r.Consistent) :
    r.close.1.Consistent := by
  unfold AgentRAGRetriever.close
  split
  · exact hr
  · exact ⟨hr.config_valid, hr.merger_config, hr.merger_decay, hr.decay⟩

theorem AgentRAGRetriever.Consistent.step {r : AgentRAGRetriever F} (hr : r.Consistent)
    (op : Op F) : (r.step P op).2.1.Consistent := by
  rcases r.step_cases P op with h | ⟨config, -, h⟩ | ⟨-, h⟩ <;> rw [h]
  · exact hr
  · exact hr.updateConfig config
  · exact hr.close

/-- `closed` is set by `Close` and by nothing else. -/
theorem AgentRAGRetriever.step_closed (r : AgentRAGRetriever F) (op : Op F) :
    (r.step P op).2.1.closed = (r.closed || op.isClose) := by
  cases op
  case updateConfig config =>
    rcases r.updateConfig_eq config with ⟨-, -, heq⟩ | ⟨err, -, heq⟩ <;>
      simp [AgentRAGRetriever.step, heq, Op.isClose]
  case close =>
    simp only [AgentRAGRetriever.step, AgentRAGRetriever.close, Op.isClose]
    split <;> simp_all
  all_goals simp [AgentRAGRetriever.step, Op.isClose]

/-- On a closed retriever a guarded method returns `ErrClosedRetriever`,
changes nothing and calls nothing. -/
theorem AgentRAGRetriever.step_of_closed (r : AgentRAGRetriever F) (hc : r.closed = true)
    (op : Op F) (hg : op.guarded = true) : r.step P op = (op.closedReply, r, []) := by
  cases op <;> simp_all [AgentRAGRetriever.step, Op.guarded, Op.closedReply,
    AgentRAGRetriever.keep, AgentRAGRetriever.searchStatic,
    AgentRAGRetriever.searchConversation, AgentRAGRetriever.searchHybrid,
    AgentRAGRetriever.addConversationTurn, AgentRAGRetriever.addKnowledgeDocument,
    AgentRAGRetriever.pruneOldConversations, AgentRAGRetriever.healthCheck]

/-- The composite error of `SearchHybrid` is a text. -/
theorem noSentinel_searchHybridJoin (merger : ResultMerger F) (query : Query)
    (staticReply convReply : Except GoError (List (SearchResult F))) (now : Time) :
    NoSentinel (searchHybridJoin P merger query staticReply convReply now) := by
  intro e he
  unfold searchHybridJoin at he
  split at he
  · cases he; rfl
  · cases he

/-- On an open retriever no guarded method returns `ErrClosedRetriever`:
every error comes from the client or is the composite error of
`SearchHybrid`. -/
theorem AgentRAGRetriever.step_not_closedError (r : AgentRAGRetriever F)
    (ho : r.closed = false) (op : Op F) (hg : op.guarded = true) :
    (r.step P op).1.isClosedError = false := by
  cases op <;> simp only [Op.guarded, Bool.false_eq_true] at hg <;>
    simp only [AgentRAGRetriever.step, AgentRAGRetriever.keep, AgentRAGRetriever.searchStatic,
      AgentRAGRetriever.searchConversation, AgentRAGRetriever.searchHybrid,
      AgentRAGRetriever.addConversationTurn, AgentRAGRetriever.addKnowledgeDocument,
      AgentRAGRetriever.pruneOldConversations, AgentRAGRetriever.healthCheck, ho,
      Bool.false_eq_true, if_false]
  case searchStatic => exact Reply.isClosedError_results (noSentinel_searchStatic _ _)
  case searchConversation =>
    exact Reply.isClosedError_results (noSentinel_map _ (noSentinel_searchConversation _ _))
  case searchHybrid => exact Reply.isClosedError_results (noSentinel_searchHybridJoin P _ _ _ _ _)
  case addConversationTurn => exact Reply.isClosedError_id (noSentinel_addConversationTurn _)
  case addKnowledgeDocument => exact Reply.isClosedError_id (noSentinel_addKnowledgeDocument _)
  case pruneOldConversations =>
    exact Reply.isClosedError_count (noSentinel_pruneOldConversations _)
  case healthCheck ex =>
    cases h : WeaviateClient.healthCheck ex
    · rfl
    · exact ne_errClosedRetriever (healthCheck_not_sentinel ex _ h)

/-- The client calls of one step include `Close` once, on the first
`Close`. -/
theorem AgentRAGRetriever.step_closeCalls (r : AgentRAGRetriever F) (op : Op F) :
    ((r.step P op).2.2.filter ClientCall.isClose).length =
      if op.isClose && !r.closed then 1 else 0 := by
  cases op <;> cases hc : r.closed <;>
    simp [AgentRAGRetriever.step, AgentRAGRetriever.keep, AgentRAGRetriever.searchStatic,
      AgentRAGRetriever.searchConversation, AgentRAGRetriever.searchHybrid,
      AgentRAGRetriever.addConversationTurn, AgentRAGRetriever.addKnowledgeDocument,
      AgentRAGRetriever.pruneOldConversations, AgentRAGRetriever.healthCheck,
      AgentRAGRetriever.close, hc, ClientCall.isClose, Op.isClose]

/-! ## Runs -/

@[simp] theorem AgentRAGRetriever.after_nil (r : AgentRAGRetriever F) : r.after P [] = r := rfl

@[simp] theorem AgentRAGRetriever.after_cons (r : AgentRAGRetriever F) (op : Op F)
    (ops : List (Op F)) : r.after P (op :: ops) = (r.step P op).2.1.after P ops := rfl

theorem AgentRAGRetriever.Consistent.after {r : AgentRAGRetriever F} (hr : r.Consistent)
    (ops : List (Op F)) : (r.after P ops).Consistent := by
  induction ops generalizing r with
  | nil => exact hr
  | cons op ops ih => exact ih (hr.step P op)

theorem AgentRAGRetriever.after_closed (r : AgentRAGRetriever F) (ops : List (Op F)) :
    (r.after P ops).closed = (r.closed || ops.any Op.isClose) := by
  induction ops generalizing r with
  | nil => simp
  | cons op ops ih => simp [ih, AgentRAGRetriever.step_closed, Bool.or_assoc]

/-- No method replaces the client. -/
theorem AgentRAGRetriever.after_client (r : AgentRAGRetriever F) (ops : List (Op F)) :
    (r.after P ops).client = r.client := by
  induction ops generalizing r with
  | nil => rfl
  | cons op ops ih =>
    rw [r.after_cons, ih]
    rcases r.step_cases P op with h | ⟨config, -, h⟩ | ⟨-, h⟩ <;> rw [h]
    · rcases r.updateConfig_eq config with ⟨-, -, heq⟩ | ⟨err, -, heq⟩ <;> rw [heq]
    · unfold AgentRAGRetriever.close
      split <;> rfl

theorem AgentRAGRetriever.run_closeCalls (r : AgentRAGRetriever F) (ops : List (Op F)) :
    ((r.run P ops).2.2.filter ClientCall.isClose).length =
      if !r.closed && ops.any Op.isClose then 1 else 0 := by
  induction ops generalizing r with
  | nil => simp [AgentRAGRetriever.run]
  | cons op ops ih =>
    have hstep := r.step_closeCalls P op
    have hclosed := r.step_closed P op
    simp only [AgentRAGRetriever.run, List.filter_append, List.length_append] at hstep ⊢
    rw [hstep, ih, hclosed, List.any_cons]
    cases r.closed <;> cases op.isClose <;> cases ops.any Op.isClose <;> rfl

/-! ## The two laws -/

/-- Every state reachable from a successful `NewAgentRAGRetriever` is
consistent, and an `UpdateConfig` that fails there changes nothing. -/
theorem retriever_config_consistent {host apiKey : String} {mc : Option (MergeConfig F)}
    {ic : Option IndexConfig} {r : AgentRAGRetriever F}
    (hnew : newAgentRAGRetriever host apiKey mc ic = .ok r) (ops : List (Op F)) :
    (r.after P ops).Consistent ∧
      ∀ config err, ((r.after P ops).step P (.updateConfig config)).1 = .err (some err) →
        ((r.after P ops).step P (.updateConfig config)).2.1 = r.after P ops := by
  refine ⟨(newAgentRAGRetriever_consistent hnew).1.after P ops, fun config err h => ?_⟩
  simp only [AgentRAGRetriever.step, Reply.err.injEq] at h ⊢
  exact (r.after P ops).updateConfig_of_error h

theorem retriever_config_consistent_after_rejected_update :
    ∃ r : AgentRAGRetriever ℚ, newAgentRAGRetriever "http://localhost:8080" "" none none = .ok r ∧
      ((r.after (Platform.ofMath id id 1)
          [.updateConfig { defaultMergeConfig with staticWeight := 2 }, .close]).Consistent ∧
        ∀ config err, ((r.after (Platform.ofMath id id 1)
          [.updateConfig { defaultMergeConfig with staticWeight := 2 }, .close]).step
            (Platform.ofMath id id 1) (.updateConfig config)).1 = .err (some err) →
          ((r.after (Platform.ofMath id id 1)
            [.updateConfig { defaultMergeConfig with staticWeight := 2 }, .close]).step
              (Platform.ofMath id id 1) (.updateConfig config)).2.1 =
            r.after (Platform.ofMath id id 1)
              [.updateConfig { defaultMergeConfig with staticWeight := 2 }, .close]) :=
  ⟨_, newAgentRAGRetriever_defaults _ _,
    retriever_config_consistent _ (newAgentRAGRetriever_defaults _ _) _⟩

/-- `Close` is final: after it every guarded method returns
`ErrClosedRetriever` with no client call, before it none does, `IsClosed`
tells which, and the client is closed once in any history that closes. -/
theorem retriever_close_final {host apiKey : String} {mc : Option (MergeConfig F)}
    {ic : Option IndexConfig} {r : AgentRAGRetriever F}
    (hnew : newAgentRAGRetriever host apiKey mc ic = .ok r) :
    (∀ pre op, op.guarded = true → pre.any Op.isClose = true →
      (r.after P pre).step P op = (op.closedReply, r.after P pre, [])) ∧
    (∀ pre op, op.guarded = true → pre.any Op.isClose = false →
      ((r.after P pre).step P op).1.isClosedError = false) ∧
    (∀ pre, ((r.after P pre).step P .isClosed).1 = .closed (pre.any Op.isClose)) ∧
    (∀ ops, ((r.run P ops).2.2.filter ClientCall.isClose).length =
      if ops.any Op.isClose then 1 else 0) := by
  have hopen := (newAgentRAGRetriever_consistent hnew).2
  have hclosed (pre : List (Op F)) : (r.after P pre).closed = pre.any Op.isClose := by
    rw [r.after_closed, hopen, Bool.false_or]
  refine ⟨fun pre op hg hc => ?_, fun pre op hg hc => ?_, fun pre => ?_, fun ops => ?_⟩
  · exact (r.after P pre).step_of_closed P ((hclosed pre).trans hc) op hg
  · exact (r.after P pre).step_not_closedError P ((hclosed pre).trans hc) op hg
  · rw [← hclosed pre]
    rfl
  · rw [r.run_closeCalls, hopen, Bool.not_false, Bool.true_and]

theorem retriever_close_final_default :
    ∃ r : AgentRAGRetriever ℚ, newAgentRAGRetriever "http://localhost:8080" "" none none = .ok r ∧
      ((∀ pre op, op.guarded = true → pre.any Op.isClose = true →
        (r.after (Platform.ofMath id id 1) pre).step (Platform.ofMath id id 1) op =
          (op.closedReply, r.after (Platform.ofMath id id 1) pre, [])) ∧
      (∀ pre op, op.guarded = true → pre.any Op.isClose = false →
        ((r.after (Platform.ofMath id id 1) pre).step (Platform.ofMath id id 1) op).1.isClosedError =
          false) ∧
      (∀ pre, ((r.after (Platform.ofMath id id 1) pre).step (Platform.ofMath id id 1) .isClosed).1 =
        .closed (pre.any Op.isClose)) ∧
      (∀ ops, ((r.run (Platform.ofMath id id 1) ops).2.2.filter ClientCall.isClose).length =
        if ops.any Op.isClose then 1 else 0)) :=
  ⟨_, newAgentRAGRetriever_defaults _ _, retriever_close_final _ (newAgentRAGRetriever_defaults _ _)⟩

/-! ## The config a history leaves -/

/-- The configs a history's `UpdateConfig` calls install: those `Validate`
accepts, in order. -/
def acceptedConfigs : List (Op F) → List (MergeConfig F)
  | [] => []
  | .updateConfig config :: ops =>
    (if config.validate.isNone then [config] else []) ++ acceptedConfigs ops
  | _ :: ops => acceptedConfigs ops

theorem acceptedConfigs_cons (op : Op F) (ops : List (Op F)) :
    acceptedConfigs (op :: ops) = acceptedConfigs [op] ++ acceptedConfigs ops := by
  cases op <;> simp [acceptedConfigs]

theorem getLast?_getD_append {α : Type} (l l' : List α) (d : α) :
    (l ++ l').getLast?.getD d = l'.getLast?.getD (l.getLast?.getD d) := by
  rw [List.getLast?_append]
  cases l'.getLast? <;> rfl

/-- One call leaves the config an accepted `UpdateConfig` installs, and keeps
it otherwise. -/
theorem AgentRAGRetriever.step_config (r : AgentRAGRetriever F) (op : Op F) :
    (r.step P op).2.1.config = (acceptedConfigs [op]).getLast?.getD r.config := by
  cases op
  case updateConfig config =>
    rcases r.updateConfig_eq config with ⟨hv, -, heq⟩ | ⟨err, hv, heq⟩
    · simp [AgentRAGRetriever.step, heq, acceptedConfigs, hv]
    · simp [AgentRAGRetriever.step, heq, acceptedConfigs, hv]
  case close =>
    simp only [AgentRAGRetriever.step, AgentRAGRetriever.close]
    split <;> rfl
  all_goals rfl

/-- **The config a history leaves.** After any history, before or after
`Close`, `GetConfig` returns the last config an `UpdateConfig` accepted, or
the retriever's first config when none was. -/
theorem retriever_getConfig_after (r : AgentRAGRetriever F) (ops : List (Op F)) :
    ((r.after P ops).step P .getConfig).1 = .config ((acceptedConfigs ops).getLast?.getD r.config) := by
  show Reply.config (r.after P ops).config = _
  congr 1
  induction ops generalizing r with
  | nil => rfl
  | cons op ops ih =>
    rw [r.after_cons, ih, r.step_config, acceptedConfigs_cons op ops, getLast?_getD_append]

end AgentRag.Retriever
