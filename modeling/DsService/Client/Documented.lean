import DsService.Client.Python
import DsService.Client.Transparent
import DsService.System.Codes
import DsService.Lib.Locking
import DsService.System.Concurrent

/-!
# The documented exceptions

`Documented` is the table of the docstrings of `DsServiceClient`: which exception each method
raises, and when, in terms of what the callers have done. `python_raises_as_documented` says that
the table is exact for a call that is carried, that a closed client raises `RuntimeError`, and that
every call does in a process that was forked after a client was created.
-/

namespace DsService

variable {Q α : Type}

/-! ## The fork guard -/

/-- The address names this target of the gRPC transport: after `grpc://`, or without a transport. -/
def Dials (address target : String) : Prop :=
  target ≠ "" ∧ (address = "grpc://" ++ target ∨
    address = target ∧ ¬ [':', '/', '/'] <:+: address.toList)

/-- A `connect` that is given an address, which it accepts. -/
def PyOp.Creates : PyOp → Prop
  | .connect environ address =>
      ∃ text target, address.or environ = some text ∧ Dials text target
  | .fork => False

/-- What led to the process created a client, and forked after that. -/
def Inherits (ops : List PyOp) : Prop := ∃ op, op.Creates ∧ [op, .fork].Sublist ops

/-- An address that is split is its scheme, the separator and its target. -/
theorem splitScheme_some {address scheme target : List Char}
    (h : splitScheme address = some (scheme, target)) :
    address = scheme ++ ':' :: '/' :: '/' :: target := by
  induction address using splitScheme.induct generalizing scheme with
  | case1 => cases h
  | case2 target' =>
    cases h
    rfl
  | case3 c rest hsep ih =>
    rw [splitScheme.eq_3 _ _ hsep] at h
    obtain ⟨⟨scheme', target'⟩, hrest, heq⟩ := Option.map_eq_some_iff.1 h
    cases heq
    exact congrArg (c :: ·) (ih hrest)

/-- An address is not split exactly if it has no separator. -/
theorem splitScheme_none {address : List Char} :
    splitScheme address = none ↔ ¬ [':', '/', '/'] <:+: address := by
  induction address using splitScheme.induct with
  | case1 => simp [splitScheme]
  | case2 target =>
    refine ⟨nofun, fun h => ?_⟩
    exact absurd (List.prefix_append [':', '/', '/'] target).isInfix h
  | case3 c rest hsep ih =>
    rw [splitScheme.eq_3 _ _ hsep, Option.map_eq_none_iff, ih, List.infix_cons_iff, not_or]
    refine (and_iff_right ?_).symm
    rintro ⟨target, heq⟩
    cases heq
    exact hsep target rfl rfl

/-- The one scheme that is supported. -/
theorem splitScheme_grpc {address target : String} :
    splitScheme address.toList = some ("grpc".toList, target.toList) ↔
      address = "grpc://" ++ target := by
  constructor
  · intro h
    apply String.toList_injective
    rw [splitScheme_some h, String.toList_append]
    rfl
  · rintro rfl
    rw [String.toList_append]
    rfl

/-- The addresses that `connect` accepts. -/
theorem connect_ok {address target : String} :
    connect address = .ok target ↔ Dials address target := by
  have hlist : ∀ {l : List Char} {s : String}, String.ofList l = s ↔ l = s.toList := by
    intro l s
    constructor
    · rintro rfl
      exact String.toList_ofList.symm
    · rintro rfl
      exact String.ofList_toList
  unfold connect Dials
  rw [← splitScheme_grpc, ← splitScheme_none]
  cases splitScheme address.toList with
  | none =>
    by_cases hempty : address = ""
    · simp [hempty, makeError]
    · simp only [hempty, if_true, if_false, reduceCtorEq, false_or, Except.ok.injEq, and_true]
      exact ⟨fun heq => ⟨heq ▸ hempty, heq⟩, And.right⟩
  | some parts =>
    obtain ⟨scheme, rest⟩ := parts
    simp only [hlist, Option.some.injEq, Prod.mk.injEq, reduceCtorEq, and_false, or_false]
    by_cases hempty : rest = "".toList
    · rw [if_pos hempty]
      constructor
      · intro herror
        cases herror
      · rintro ⟨hne, -, hrest⟩
        exact absurd (String.toList_injective (hrest.symm.trans hempty)) hne
    rw [if_neg hempty]
    by_cases hscheme : scheme = "grpc".toList
    · rw [if_pos hscheme, Except.ok.injEq, hlist]
      refine ⟨fun hrest => ⟨?_, hscheme, hrest⟩, fun h => h.2.2⟩
      rintro rfl
      exact hempty hrest
    · rw [if_neg hscheme]
      constructor
      · intro herror
        cases herror
      · intro h
        exact absurd h.2.1 hscheme

/-- A process that the guard stops has had a client. -/
theorem connect_created {p : PyProcess}
    (hguard : p.forkedAfterClient = true → p.clientCreated = true)
    (environ address : Option String) :
    (p.connect environ address).2.clientCreated = true ↔
      p.clientCreated = true ∨ (PyOp.connect environ address).Creates := by
  unfold PyProcess.connect PyOp.Creates
  simp only [← connect_ok]
  cases address.or environ with
  | none => simp
  | some text =>
    by_cases hforked : p.forkedAfterClient = true
    · simp [hforked, hguard hforked]
    · cases hconnect : connect text with
      | error e => simp [hforked, hconnect]
      | ok target => simp [hforked, hconnect]

/-- A `connect` does not change whether the process has forked. -/
theorem connect_forked (p : PyProcess) (environ address : Option String) :
    (p.connect environ address).2.forkedAfterClient = p.forkedAfterClient := by
  unfold PyProcess.connect
  split
  · rfl
  · split
    · rfl
    · split <;> rfl

/-- The globals of a process say what led to it. -/
theorem after_iff (ops : List PyOp) :
    ((PyProcess.after ops).clientCreated = true ↔ ∃ op ∈ ops, op.Creates) ∧
      ((PyProcess.after ops).forkedAfterClient = true ↔ Inherits ops) := by
  induction ops using List.reverseRecOn with
  | nil => simp [PyProcess.after, Inherits]
  | append_singleton ops op ih =>
    obtain ⟨hcreated, hforked⟩ := ih
    have hguard : (PyProcess.after ops).forkedAfterClient = true →
        (PyProcess.after ops).clientCreated = true := by
      rw [hcreated, hforked]
      rintro ⟨op, hop, hsub⟩
      exact ⟨op, hsub.subset (by simp), hop⟩
    have hafter : PyProcess.after (ops ++ [op]) = (PyProcess.after ops).step op := by
      rw [PyProcess.after, List.foldl_concat]
      rfl
    have hmem : (∃ o ∈ ops ++ [op], o.Creates) ↔ (∃ o ∈ ops, o.Creates) ∨ op.Creates := by
      simp [or_and_right, exists_or]
    have hinherits : Inherits (ops ++ [op]) ↔
        Inherits ops ∨ op = .fork ∧ ∃ o ∈ ops, o.Creates := by
      simp only [Inherits, Locking.pair_sublist_snoc]
      constructor
      · rintro ⟨o, ho, hsub | ⟨hmem, hop⟩⟩
        · exact .inl ⟨o, ho, hsub⟩
        · exact .inr ⟨hop.symm, o, hmem, ho⟩
      · rintro (⟨o, ho, hsub⟩ | ⟨rfl, o, hmem, ho⟩)
        · exact ⟨o, ho, .inl hsub⟩
        · exact ⟨o, ho, .inr ⟨hmem, rfl⟩⟩
    rw [hafter, hmem, hinherits, ← hcreated, ← hforked]
    cases op with
    | connect environ address =>
      rw [PyProcess.step, connect_created hguard, connect_forked]
      simp
    | fork =>
      unfold PyProcess.step PyProcess.afterForkInChild
      by_cases hclient : (PyProcess.after ops).clientCreated = true
      · simp [hclient, PyOp.Creates]
      · simp [hclient, PyOp.Creates]

/-! ## The table -/

/-- Which exceptions the docstrings of `DsServiceClient` say a method raises, and when. -/
def Documented (re2 : RE2) (iso : Iso8601) (es : List (SystemEvent Q α)) (m : SystemState Q α) :
    ClientCall α → PyClass → Prop
  | .mapGet key, cls => cls = .keyError ∧ ¬ Written iso .map key es
  | .mapSearchKey pattern, cls | .taskSearchId pattern, cls | .journalSearchKey pattern, cls
  | .timeSeriesSearchKey pattern, cls | .mutexSearchKey pattern, cls
  | .counterSearchKey pattern, cls =>
      cls = .valueError ∧ re2.Rejects pattern
  | .taskAdd taskId parentTaskIds _ _ _ _, cls =>
      cls = .valueError ∧ Written iso .tasks taskId es ∨
        cls = .keyError ∧ ¬ Written iso .tasks taskId es ∧
          ∃ parent ∈ parentTaskIds, ¬ Written iso .tasks parent es
  | .taskGetOutput taskId, cls | .taskGetPriority taskId, cls | .taskSetPriority taskId _, cls
  | .taskCancel taskId, cls =>
      cls = .keyError ∧ ¬ Written iso .tasks taskId es
  | .taskGetWorkerId taskId, cls =>
      cls = .keyError ∧ ¬ Written iso .tasks taskId es ∨
        cls = .taskStateError ∧ Written iso .tasks taskId es ∧
          m.taskManager.statusOf taskId ≠ some .running
  | .taskGet _ queue, cls =>
      cls = .noTaskAvailable ∧ ∀ q ∈ queue, ∀ taskId, ListedOn es q taskId →
        m.taskManager.statusOf taskId ≠ some .ready
  | .taskDone taskId workerId _ _, cls =>
      cls = .keyError ∧ ¬ Written iso .tasks taskId es ∨
        cls = .taskStateError ∧ Written iso .tasks taskId es ∧
          m.taskManager.statusOf taskId ≠ some .canceled ∧
          (m.taskManager.statusOf taskId = some .running → ¬ HandedTo es taskId workerId)
  | .timeSeriesAppend _ _ datetime _, cls => cls = .valueError ∧ iso.parse datetime = none
  | .timeSeriesGet _ startTime endTime _ _, cls =>
      cls = .valueError ∧ (iso.Rejects startTime ∨ iso.Rejects endTime)
  | .mutexRelease key workerId, cls => cls = .mutexNotHeld ∧ ¬ HeldBy es key workerId
  | .mutexGetWorkerId key, cls =>
      cls = .keyError ∧ ¬ Written iso .mutexes key es ∨
        cls = .mutexNotHeld ∧ Written iso .mutexes key es ∧ ∀ w, ¬ HeldBy es key w
  | _, _ => False

/-- A refusal with one code is raised as its class. -/
theorem raised_one {f : ErrorCode → PyClass} {code : ErrorCode} {raised cls : PyClass} {p : Prop}
    (h : f code = raised) : cls = raised ∧ p ↔ ∃ code', (code' = code ∧ p) ∧ f code' = cls := by
  subst h
  constructor
  · rintro ⟨rfl, hp⟩
    exact ⟨code, ⟨rfl, hp⟩, rfl⟩
  · rintro ⟨_, ⟨rfl, hp⟩, rfl⟩
    exact ⟨rfl, hp⟩

/-- Two codes are raised as two classes. -/
theorem raised_two {f : ErrorCode → PyClass} {code₁ code₂ : ErrorCode}
    {raised₁ raised₂ cls : PyClass} {p q : Prop} (h₁ : f code₁ = raised₁) (h₂ : f code₂ = raised₂) :
    cls = raised₁ ∧ p ∨ cls = raised₂ ∧ q ↔
      ∃ code', (code' = code₁ ∧ p ∨ code' = code₂ ∧ q) ∧ f code' = cls := by
  rw [raised_one h₁, raised_one h₂, ← exists_or]
  exact exists_congr fun _ => or_and_right.symm

/-- Without a code nothing is raised. -/
theorem raised_none {f : ErrorCode → PyClass} {cls : PyClass} :
    False ↔ ∃ code', False ∧ f code' = cls :=
  ⟨nofun, fun ⟨_, h, _⟩ => h⟩

/-- The table is what the server refuses, through the handlers. -/
theorem documented_iff {re2 : RE2} {iso : Iso8601} {es : List (SystemEvent Q α)}
    {m : SystemState Q α} (c : ClientCall α) (cls : PyClass) :
    Documented re2 iso es m c cls ↔ ∃ code, c.op.Refused re2 iso es m code ∧
      translateCode (DsServiceClient.notFound c) (DsServiceClient.failedPrecondition c) code
        = cls := by
  cases c with
  | mapGet key => exact raised_one rfl
  | mapSearchKey pattern => exact raised_one rfl
  | taskAdd taskId parentTaskIds queue priority function input => exact raised_two rfl rfl
  | taskGetOutput taskId => exact raised_one rfl
  | taskCancel taskId => exact raised_one rfl
  | taskGetPriority taskId => exact raised_one rfl
  | taskSetPriority taskId priority => exact raised_one rfl
  | taskGetWorkerId taskId => exact raised_two rfl rfl
  | taskSearchId pattern => exact raised_one rfl
  | taskGet workerId queue => exact raised_one rfl
  | taskDone taskId workerId output failed => exact raised_two rfl rfl
  | journalSearchKey pattern => exact raised_one rfl
  | timeSeriesAppend key value datetime step => exact raised_one rfl
  | timeSeriesGet key startTime endTime startStep endStep => exact raised_one rfl
  | timeSeriesSearchKey pattern => exact raised_one rfl
  | mutexRelease key workerId => exact raised_one rfl
  | mutexGetWorkerId key => exact raised_two rfl rfl
  | mutexSearchKey pattern => exact raised_one rfl
  | counterSearchKey pattern => exact raised_one rfl
  | _ => exact raised_none

/-- The error of a reply is the error that the caller has. -/
theorem ClientCall.reply_error (c : ClientCall α) (r : Result c.Value) :
    (c.reply r).error = errorOf r := by
  cases c <;> cases r <;> rfl

/-- An error is raised as the class of its code. -/
theorem raised_iff {T : Type} {r : Result T} {notFound failedPrecondition cls : PyClass} :
    (∃ message, r.mapError (translateError notFound failedPrecondition) = .error ⟨cls, message⟩) ↔
      ∃ code, refusalCode r = some code ∧ translateCode notFound failedPrecondition code = cls := by
  cases r with
  | ok value => simp [Except.mapError, refusalCode_ok]
  | error e => simp [Except.mapError, refusalCode_error, translateError]

open DsServiceClient GrpcClientTransport in
/-- **The documented exceptions are exact.** After every run of the server, in a process that any
forks and `connect`s led to: if a client was created before one of the forks, every call raises
`RuntimeError` and reaches no server, and so does otherwise a call on a closed client. Every other
call that is carried raises what its docstring says, when it says so, and nothing else. -/
theorem python_raises_as_documented [LinearOrder α] [Zero α]
    [PriorityQueue Q (TaskQueueEntry α) taskQueueEntryOrder] {re2 : RE2} {iso : Iso8601}
    {ch : Channel} {es : List (SystemEvent Q α)} {m : SystemState Q α}
    (h : (SystemState.machine Q re2 iso).Run es m) (ops : List PyOp) (closed closing : Bool)
    (c : ClientCall α) (hcarries : Carries re2 iso ch (Client.call c) m) :
    ∃ (r : Except PyError c.Value) (m' : SystemState Q α),
      call re2 iso ch (.after ops) closed closing c m = some (r, m') ∧
      (Inherits ops → r = .error ⟨.runtimeError, forkMessage⟩ ∧ m' = m) ∧
      (¬ Inherits ops → closed = true →
        r = .error ⟨.runtimeError, closedError.message⟩ ∧ m' = m) ∧
      (¬ Inherits ops → closed = false → ∀ cls,
        (∃ message, r = .error ⟨cls, message⟩) ↔ Documented re2 iso es m c cls) := by
  rw [← (after_iff ops).2]
  unfold call
  by_cases hforked : (PyProcess.after ops).forkedAfterClient = true
  · rw [if_pos hforked]
    exact ⟨_, _, rfl, fun _ => ⟨rfl, rfl⟩, fun hnot => absurd hforked hnot,
      fun hnot => absurd hforked hnot⟩
  rw [if_neg hforked]
  cases closed with
  | true => exact ⟨_, _, rfl, fun hyes => absurd hyes hforked, fun _ _ => ⟨rfl, rfl⟩, nofun⟩
  | false =>
    obtain ⟨reply, m', hstep⟩ := SystemState.step_defined h c.op
    have htrans : (invoke re2 iso ch closing (Client.call c) m).map (Prod.map c.reply id) =
        some (reply, m') := ((answered re2 iso c m).transparent hcarries).trans hstep
    obtain ⟨⟨result, m''⟩, hinvoke, heq⟩ := Option.map_eq_some_iff.1 htrans
    cases heq
    simp only [Bool.false_eq_true, if_false, hinvoke]
    refine ⟨_, _, rfl, fun hyes => absurd hyes hforked, nofun, fun _ _ cls => ?_⟩
    rw [raised_iff, documented_iff]
    refine exists_congr fun code => and_congr_left fun _ => ?_
    rw [← SystemState.refused_iff h hstep, c.reply_error]
    rfl

open DsServiceClient GrpcClientTransport in

/-- A process that forked before its first client is answered by the server. -/
theorem python_raises_as_documented_forkedFirst :
    ∃ (message : String) (m' : SystemState (ListQueue (taskQueueEntryOrder (α := Nat))) Nat),
      call sampleRe2 sampleIso asciiChannel (.after [.fork, .connect none (some "h:1")]) false false
        (.mutexRelease "k" "v") heldMutex = some (.error ⟨.mutexNotHeld, message⟩, m') := by
  have hrun : sampleServer.Run (sampleServer.runOf [.mutexes (.tryAcquire ⟨"k", "w"⟩)]).1
      heldMutex := Machine.run_runOf _ rfl
  have hcarries : Carries sampleRe2 sampleIso asciiChannel (Client.call (.mutexRelease "k" "v"))
      heldMutex := by
    refine ⟨⟨List.all_eq_true.1 rfl, le_rfl⟩, ?_⟩
    intro status response m' hserve
    cases hserve
    exact ⟨⟨List.all_eq_true.1 rfl, le_rfl⟩, ⟨nofun, le_rfl⟩⟩
  have hfirst : ¬ Inherits [.fork, .connect none (some "h:1")] := by
    rw [← (after_iff _).2]
    decide
  have hheld : ¬ HeldBy (sampleServer.runOf [.mutexes (.tryAcquire ⟨"k", "w"⟩)]).1 "k" "v" := by
    rw [SystemState.heldBy_iff hrun]
    have hlookup : heldMutex.mutexes.data.lookup "k" = some ⟨true, "w"⟩ := rfl
    simp [hlookup]
  obtain ⟨r, m', hcall, -, -, hraises⟩ := python_raises_as_documented hrun
    [.fork, .connect none (some "h:1")] false false (.mutexRelease "k" "v") hcarries
  obtain ⟨message, rfl⟩ := (hraises hfirst rfl .mutexNotHeld).2 ⟨rfl, hheld⟩
  exact ⟨message, m', hcall⟩

end DsService
