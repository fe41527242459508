import IotDeviceSdk.Service.DetectAnomaly
import Mathlib.Data.List.Induction

/-!
# The lifecycle of the detection tasks

`MessageEffect` says what a message does to the tasks: the setting it gives to each
(`settingAfter`), kept when it gives none, and the calls that turn the task on or off.  `Settled` is
what holds between messages: `check` and `newCheck` agree, the functions of each task have been
called in turn, and so have the creation and the cancellation of the thread, which runs exactly when
a task is on.

`detection_lifecycle`: both hold along every sequence of messages.
-/

namespace IotDeviceSdk.Service

open CJson

variable {outside : DetectOutside} {s : DetectState}

/-! ### Calls of one kind -/

/-- The calls of functions of the `i`-th task. -/
def ofTask (i : ℕ) : DetectEvent → Bool
  | .init j => j == i
  | .destroy j => j == i
  | _ => false

/-- The calls that start and stop the thread. -/
def ofThread : DetectEvent → Bool
  | .pthreadCreate => true
  | .pthreadCancel => true
  | _ => false

/-- Whether the function of a call exists. -/
def SituationAwarenessTasks.hasFunction (task : SituationAwarenessTasks) : DetectEvent → Bool
  | .init _ => task.init.isSome
  | .destroy _ => task.destroy.isSome
  | _ => false

/-- The member of a message that is about a task. -/
def taskItem (outside : DetectOutside) (propertiesDown : String)
    (task : SituationAwarenessTasks) : Option CJson :=
  (outside.parseJson propertiesDown).bind fun jsonData =>
    getObjectItem (some jsonData) task.checkName

/-- The setting of a task after a message: kept when no member is about the task, and otherwise on
when the number there has a whole part that is not zero.  A member without a number, or with one
that is no `int`, gives what the conversion makes of it. -/
def settingAfter (outside : DetectOutside) (propertiesDown : String)
    (task : SituationAwarenessTasks) : Bool :=
  match taskItem outside propertiesDown task with
  | none => task.newCheck
  | some (.number value) =>
    if -2 ^ 31 - 1 < value ∧ value < 2 ^ 31 then decide (1 ≤ |value|)
    else outside.outOfRange (some value) ≠ 0
  | some _ => outside.outOfRange none ≠ 0

/-! ### The numbers of a message -/

/-- Dropping the fraction leaves zero of the numbers below one. -/
theorem truncate_ne_zero_iff (q : ℚ) : truncate q ≠ 0 ↔ 1 ≤ |q| := by
  have hfloor : ∀ {r : ℚ}, 0 ≤ r → (⌊r⌋ ≠ 0 ↔ 1 ≤ r) := by
    intro r hr
    rw [ne_eq, Int.floor_eq_zero_iff, Set.mem_Ico, and_iff_right hr, not_lt]
  unfold truncate
  by_cases hq : 0 ≤ q
  · rw [if_pos hq, abs_of_nonneg hq]
    exact hfloor hq
  · rw [if_neg hq, abs_of_neg (not_le.mp hq), neg_ne_zero]
    exact hfloor (by linarith)

theorem loadNumber_setting {jsonData : CJson} {propertiesDown : String}
    (hparse : outside.parseJson propertiesDown = some jsonData) (task : SituationAwarenessTasks) :
    settingAfter outside propertiesDown task =
      match loadNumber outside jsonData task.checkName with
      | some check => decide (check ≠ 0)
      | none => task.newCheck := by
  have hitem : taskItem outside propertiesDown task =
      getObjectItem (some jsonData) task.checkName := by
    rw [taskItem, hparse, Option.bind_some]
  unfold settingAfter loadNumber
  rw [hitem]
  cases getObjectItem (some jsonData) task.checkName with
  | none => rfl
  | some item =>
    cases item with
    | number value =>
      have hlow : ((INT_MIN : ℤ) : ℚ) - 1 = -2 ^ 31 - 1 := by norm_num [INT_MIN]
      have hhigh : ((INT_MAX : ℤ) : ℚ) + 1 = 2 ^ 31 := by norm_num [INT_MAX]
      show (if -2 ^ 31 - 1 < value ∧ value < 2 ^ 31 then decide (1 ≤ |value|)
        else decide (outside.outOfRange (some value) ≠ 0)) =
          decide (intOfDouble outside (some value) ≠ 0)
      unfold intOfDouble
      dsimp only
      rw [hlow, hhigh]
      split
      · exact decide_eq_decide.mpr (truncate_ne_zero_iff value).symm
      · rfl
    | null => rfl
    | bool b => rfl
    | string valuestring => rfl
    | array child => rfl
    | object child => rfl

/-! ### One message -/

theorem taskCalls_eq (i : ℕ) (task : SituationAwarenessTasks) :
    taskCalls i task =
      (switchCalls (.init i) (.destroy i) task.check task.newCheck).filter task.hasFunction := by
  unfold taskCalls switchCalls
  cases task.check <;> cases task.newCheck <;>
    cases hinit : task.init.isSome <;> cases hdestroy : task.destroy.isSome <;>
    simp [SituationAwarenessTasks.hasFunction, hinit, hdestroy]

theorem mem_taskCalls {i : ℕ} {task : SituationAwarenessTasks} {call : DetectEvent}
    (h : call ∈ taskCalls i task) : call = .init i ∨ call = .destroy i := by
  unfold taskCalls at h
  rcases List.mem_append.mp h with h | h
  · split at h
    · exact Or.inl (List.mem_singleton.mp h)
    · cases h
  · split at h
    · exact Or.inr (List.mem_singleton.mp h)
    · cases h

theorem taskCalls_filter (i j : ℕ) (task : SituationAwarenessTasks) :
    (taskCalls i task).filter (ofTask j) = if i = j then taskCalls i task else [] := by
  have hof : ∀ call ∈ taskCalls i task, ofTask j call = decide (i = j) := by
    intro call hcall
    rcases mem_taskCalls hcall with rfl | rfl
    · rfl
    · rfl
  by_cases hij : i = j
  · rw [if_pos hij, List.filter_eq_self]
    intro call hcall
    rw [hof call hcall, decide_eq_true hij]
  · rw [if_neg hij, List.filter_eq_nil_iff]
    intro call hcall
    rw [hof call hcall, decide_eq_false hij]
    decide

theorem reconcileTasks_config (tasks : List SituationAwarenessTasks) (i : ℕ)
    (securityConfig : Bool) :
    (reconcileTasks i securityConfig tasks).1 = (securityConfig || tasks.any (·.newCheck)) := by
  induction tasks generalizing i securityConfig with
  | nil => exact (Bool.or_false _).symm
  | cons task tasks ih =>
    rw [List.any_cons, ← Bool.or_assoc]
    exact ih (i + 1) (securityConfig || task.newCheck)

theorem reconcileTasks_tasks (tasks : List SituationAwarenessTasks) (i : ℕ)
    (securityConfig : Bool) :
    (reconcileTasks i securityConfig tasks).2.1 =
      tasks.map fun task => { task with check := task.newCheck } := by
  induction tasks generalizing i securityConfig with
  | nil => rfl
  | cons task tasks ih => exact congrArg (_ :: ·) (ih (i + 1) (securityConfig || task.newCheck))

/-- The loop calls the functions of each task at its own index. -/
theorem reconcileTasks_calls (tasks : List SituationAwarenessTasks) (i k : ℕ)
    (securityConfig : Bool) :
    (reconcileTasks i securityConfig tasks).2.2.filter (ofTask k) =
      if k < i then [] else ((tasks[k - i]?).map (taskCalls k)).getD [] := by
  induction tasks generalizing i securityConfig with
  | nil => simp [reconcileTasks]
  | cons task tasks ih =>
    show (taskCalls i task ++ (reconcileTasks (i + 1) _ tasks).2.2).filter _ = _
    rw [List.filter_append, taskCalls_filter, ih]
    rcases Nat.lt_trichotomy k i with hlt | rfl | hgt
    · rw [if_neg (by omega), if_pos (by omega), if_pos hlt]
      rfl
    · rw [if_pos rfl, if_pos (by omega), if_neg (by omega), Nat.sub_self]
      exact List.append_nil _
    · obtain ⟨d, rfl⟩ := Nat.exists_eq_add_of_lt hgt
      rw [if_neg (by omega), if_neg (by omega), if_neg (by omega)]
      have hindex : i + d + 1 - i = d + 1 := by omega
      have hrest : i + d + 1 - (i + 1) = d := by omega
      rw [hindex, hrest, List.getElem?_cons_succ]
      rfl

/-- The loop makes no call about the thread. -/
theorem reconcileTasks_thread (tasks : List SituationAwarenessTasks) (i : ℕ)
    (securityConfig : Bool) :
    (reconcileTasks i securityConfig tasks).2.2.filter ofThread = [] := by
  induction tasks generalizing i securityConfig with
  | nil => rfl
  | cons task tasks ih =>
    show (taskCalls i task ++ (reconcileTasks (i + 1) _ tasks).2.2).filter _ = _
    rw [List.filter_append, ih, List.append_nil, List.filter_eq_nil_iff]
    intro call hcall
    rcases mem_taskCalls hcall with rfl | rfl
    · exact Bool.false_ne_true
    · exact Bool.false_ne_true

theorem detectLoadJsonData_tasks (outside : DetectOutside) (propertiesDown : String)
    (s : DetectState) :
    (detectLoadJsonData outside propertiesDown s).tasks = s.tasks.map fun task =>
      { task with newCheck := settingAfter outside propertiesDown task } := by
  unfold detectLoadJsonData
  cases hparse : outside.parseJson propertiesDown with
  | none =>
    have hkeeps : ∀ task, settingAfter outside propertiesDown task = task.newCheck := by
      intro task
      unfold settingAfter taskItem
      rw [hparse, Option.bind_none]
    simp only [hkeeps]
    exact (List.map_id s.tasks).symm
  | some jsonData =>
    apply List.map_congr_left
    intro task _
    rw [loadNumber_setting hparse]
    unfold loadCheck
    cases loadNumber outside jsonData task.checkName <;> rfl

theorem detectLoadJsonData_frame (outside : DetectOutside) (propertiesDown : String)
    (s : DetectState) :
    (detectLoadJsonData outside propertiesDown s).reportMemoryTaskRunning =
        s.reportMemoryTaskRunning ∧
      (detectLoadJsonData outside propertiesDown s).threadExists = s.threadExists ∧
      (detectLoadJsonData outside propertiesDown s).events = s.events := by
  unfold detectLoadJsonData
  cases outside.parseJson propertiesDown <;> exact ⟨rfl, rfl, rfl⟩

/-- The calls of `Detect_ReportDetectionInfo`, and the thread. -/
theorem detectReportDetectionInfo_spec (outside : DetectOutside) (s : DetectState) :
    ∃ s', detectReportDetectionInfo outside s = s' ∧
      s'.tasks = s.tasks.map (fun task => { task with check := task.newCheck }) ∧
      s'.reportMemoryTaskRunning = s.tasks.any (·.newCheck) ∧
      s'.events = s.events ++ ((reconcileTasks 0 false s.tasks).2.2 ++
        switchCalls .pthreadCreate .pthreadCancel s.reportMemoryTaskRunning
          (s.tasks.any (·.newCheck))) ∧
      (outside.created = true → s.threadExists = s.reportMemoryTaskRunning →
        s'.threadExists = s'.reportMemoryTaskRunning) := by
  have hconfig := reconcileTasks_config s.tasks 0 false
  have htasks := reconcileTasks_tasks s.tasks 0 false
  rw [Bool.false_or] at hconfig
  refine ⟨_, rfl, ?_⟩
  rw [← htasks, ← hconfig]
  unfold detectReportDetectionInfo switchCalls
  obtain ⟨securityConfig, tasks, calls⟩ := reconcileTasks 0 false s.tasks
  cases s.reportMemoryTaskRunning <;> cases securityConfig
  · exact ⟨rfl, rfl, by simp, fun _ h => h⟩
  · exact ⟨rfl, rfl, by simp, fun h _ => h⟩
  · exact ⟨rfl, rfl, by simp, fun _ _ => rfl⟩
  · exact ⟨rfl, rfl, by simp, fun _ h => h⟩

/-! ### Messages -/

/-- **What a message does**: each task gets its setting, as `newCheck` and as `check`, and exactly
the calls of the functions it has that turn it from its setting before to the one after. -/
structure MessageEffect (outside : DetectOutside) (propertiesDown : String) (s s' : DetectState) :
    Prop where
  tasks : s'.tasks = s.tasks.map fun task =>
    { task with
      newCheck := settingAfter outside propertiesDown task
      check := settingAfter outside propertiesDown task }
  calls : ∃ calls, s'.events = s.events ++ calls ∧
    (∀ i task, s.tasks[i]? = some task → calls.filter (ofTask i) =
      (switchCalls (.init i) (.destroy i) task.newCheck
        (settingAfter outside propertiesDown task)).filter task.hasFunction) ∧
    calls.filter ofThread = switchCalls .pthreadCreate .pthreadCancel s.reportMemoryTaskRunning
      s'.reportMemoryTaskRunning

/-- **What holds between messages.** -/
structure Settled (s : DetectState) : Prop where
  checks : ∀ task ∈ s.tasks, task.check = task.newCheck
  tasks : ∀ i task, s.tasks[i]? = some task → task.init.isSome → task.destroy.isSome →
    Alternates (.init i) (.destroy i) task.check (s.events.filter (ofTask i))
  thread : Alternates .pthreadCreate .pthreadCancel s.reportMemoryTaskRunning
    (s.events.filter ofThread)
  running : s.reportMemoryTaskRunning = s.tasks.any (·.check)

theorem threadCalls_ofTask (before after : Bool) (i : ℕ) (properties : List (String × ℤ)) :
    (switchCalls DetectEvent.pthreadCreate .pthreadCancel before after ++
      [DetectEvent.propertiesReport properties]).filter (ofTask i) = [] := by
  cases before <;> cases after <;> rfl

theorem threadCalls_ofThread (before after : Bool) (properties : List (String × ℤ)) :
    (switchCalls DetectEvent.pthreadCreate .pthreadCancel before after ++
      [DetectEvent.propertiesReport properties]).filter ofThread =
        switchCalls .pthreadCreate .pthreadCancel before after := by
  cases before <;> cases after <;> rfl

theorem message_effect (outside : DetectOutside) (propertiesDown : String)
    (hchecks : ∀ task ∈ s.tasks, task.check = task.newCheck) :
    ∃ s', detectParseShadowGetOrPropertiesSet outside propertiesDown s = s' ∧
      MessageEffect outside propertiesDown s s' ∧
      s'.reportMemoryTaskRunning = s'.tasks.any (·.check) ∧
      (outside.created = true → s.threadExists = s.reportMemoryTaskRunning →
        s'.threadExists = s'.reportMemoryTaskRunning) := by
  obtain ⟨hrunning, hexists, hevents⟩ := detectLoadJsonData_frame outside propertiesDown s
  have hloaded := detectLoadJsonData_tasks outside propertiesDown s
  obtain ⟨s₁, hs₁, htasks, hconfig, hcalls, hthread⟩ :=
    detectReportDetectionInfo_spec outside (detectLoadJsonData outside propertiesDown s)
  rw [hrunning, hexists] at hthread
  rw [hrunning, hevents, ← hconfig] at hcalls
  have hlist := reconcileTasks_calls (detectLoadJsonData outside propertiesDown s).tasks 0
  refine ⟨detectReportShadowDesired s₁, ?_, ⟨?_, ?_⟩, ?_, hthread⟩
  · rw [← hs₁]
    rfl
  · show s₁.tasks = _
    rw [htasks, hloaded, List.map_map]
    rfl
  · obtain ⟨properties, hreport⟩ : ∃ properties, (detectReportShadowDesired s₁).events =
        s₁.events ++ [.propertiesReport properties] := ⟨_, rfl⟩
    rw [hcalls, List.append_assoc, List.append_assoc] at hreport
    refine ⟨_, hreport, ?_, ?_⟩
    · intro i task htask
      have hmem := List.mem_of_getElem? htask
      rw [List.filter_append, threadCalls_ofTask, List.append_nil, hlist,
        if_neg (Nat.not_lt_zero i), Nat.sub_zero, hloaded, List.getElem?_map, htask,
        ← hchecks task hmem]
      exact taskCalls_eq i _
    · rw [List.filter_append, reconcileTasks_thread, threadCalls_ofThread]
      rfl
  · show s₁.reportMemoryTaskRunning = s₁.tasks.any _
    rw [hconfig, htasks, List.any_map]
    rfl

/-- **Every message settles the tasks.** -/
theorem settled_message (h : Settled s) (outside : DetectOutside) (propertiesDown : String) :
    Settled (detectParseShadowGetOrPropertiesSet outside propertiesDown s) := by
  obtain ⟨s', hs', ⟨htasks, calls, hevents, hcalls, hthread⟩, hrunning, -⟩ :=
    message_effect outside propertiesDown h.checks
  rw [hs']
  refine ⟨?_, ?_, ?_, hrunning⟩
  · rw [htasks]
    intro task htask
    obtain ⟨old, -, rfl⟩ := List.mem_map.mp htask
    rfl
  · intro i task htask hinit hdestroy
    rw [htasks, List.getElem?_map] at htask
    obtain ⟨old, hold, rfl⟩ := Option.map_eq_some_iff.mp htask
    have hfunctions : ∀ before after, (switchCalls (DetectEvent.init i) (.destroy i) before
        after).filter old.hasFunction = switchCalls (.init i) (.destroy i) before after := by
      intro before after
      cases before <;> cases after <;>
        simp [switchCalls, SituationAwarenessTasks.hasFunction, hinit, hdestroy]
    have hbefore := h.tasks i old hold hinit hdestroy
    rw [hevents, List.filter_append, hcalls i old hold, hfunctions,
      ← h.checks old (List.mem_of_getElem? hold)]
    exact hbefore.switch _
  · rw [hevents, List.filter_append, hthread]
    exact h.thread.switch _

theorem settled_start : Settled {} := by
  refine ⟨by decide, ?_, .nil, by decide⟩
  intro i task htask _ _
  have hoff : ∀ task ∈ gMTasks, task.check = false := by decide
  rw [hoff task (List.mem_of_getElem? htask)]
  exact .nil

/-- **The lifecycle of the detection tasks**: after any messages the tasks are settled, a further
message does to each task what its setting asks for, and the thread exists exactly when a task is on
as long as it can be created. -/
theorem detection_lifecycle (messages : List (DetectOutside × String)) :
    Settled (detectMessages messages) ∧
      (∀ (outside : DetectOutside) (propertiesDown : String),
        MessageEffect outside propertiesDown (detectMessages messages)
          (detectMessages (messages ++ [(outside, propertiesDown)]))) ∧
      ((∀ message ∈ messages, message.1.created = true) →
        ((detectMessages messages).threadExists = true ↔
          ∃ task ∈ (detectMessages messages).tasks, task.check = true)) := by
  have hsnoc : ∀ (messages : List (DetectOutside × String)) (message : DetectOutside × String),
      detectMessages (messages ++ [message]) =
        detectParseShadowGetOrPropertiesSet message.1 message.2 (detectMessages messages) := by
    intro messages message
    rw [detectMessages, List.foldl_append]
    rfl
  have hsettled : ∀ messages, Settled (detectMessages messages) := by
    intro messages
    induction messages using List.reverseRecOn with
    | nil => exact settled_start
    | append_singleton messages message ih =>
      rw [hsnoc]
      exact settled_message ih message.1 message.2
  refine ⟨hsettled messages, ?_, ?_⟩
  · intro outside propertiesDown
    obtain ⟨s', hs', heffect, -, -⟩ :=
      message_effect outside propertiesDown (hsettled messages).checks
    rw [hsnoc, hs']
    exact heffect
  · intro hcreated
    have hthread : (detectMessages messages).threadExists =
        (detectMessages messages).reportMemoryTaskRunning := by
      induction messages using List.reverseRecOn with
      | nil => rfl
      | append_singleton messages message ih =>
        obtain ⟨s', hs', -, -, hexists⟩ :=
          message_effect message.1 message.2 (hsettled messages).checks
        rw [hsnoc, hs']
        exact hexists (hcreated message (by simp)) (ih fun m hm => hcreated m (by simp [hm]))
    rw [hthread, (hsettled messages).running, List.any_eq_true]

/-- A message about two of the tasks that turns the first one on. -/
def fileTamperMessage (text : String) (check : ℚ) : DetectOutside × String :=
  (⟨fun _ => some (.object [("memoryCheck", .number 1), ("fileTamperCheck", .number check)]),
    fun _ => 0, true⟩, text)

/-- A message that turns both tasks on. -/
def turnsOn : DetectOutside × String :=
  fileTamperMessage "\x7b\"memoryCheck\":1,\"fileTamperCheck\":1\x7d" 1

/-- A message that turns the second of them off again. -/
def turnsOff : DetectOutside × String :=
  fileTamperMessage "\x7b\"memoryCheck\":1,\"fileTamperCheck\":0\x7d" 0

/-- A task is turned on, with its function and the thread, and then off, while the thread goes on
for the other one. -/
theorem detection_lifecycle_fileTamper :
    (∃ calls, (detectMessages [turnsOn]).events = calls ∧
      calls.filter (ofTask 6) = [.init 6] ∧ calls.filter ofThread = [.pthreadCreate]) ∧
    (∃ calls, (detectMessages [turnsOn, turnsOff]).events = (detectMessages [turnsOn]).events ++
      calls ∧ calls.filter (ofTask 6) = [.destroy 6]) ∧
    (detectMessages [turnsOn, turnsOff]).threadExists = true := by
  have hon := (detection_lifecycle []).2.1 turnsOn.1 turnsOn.2
  have hoff := (detection_lifecycle [turnsOn]).2.1 turnsOff.1 turnsOff.2
  refine ⟨?_, ?_, ?_⟩
  · obtain ⟨calls, hevents, hcalls, hthread⟩ := hon.calls
    refine ⟨calls, hevents, ?_, ?_⟩
    · rw [hcalls 6 _ rfl]
      decide +kernel
    · rw [hthread]
      decide +kernel
  · obtain ⟨calls, hevents, hcalls, -⟩ := hoff.calls
    refine ⟨calls, hevents, ?_⟩
    have htask : (detectMessages [turnsOn]).tasks[6]? = some
        { check := true
          newCheck := true
          checkName := "fileTamperCheck"
          init := some .fileTamperCheckInit
          destroy := some .fileTamperCheckDestroy } := by
      decide +kernel
    rw [hcalls 6 _ htask]
    decide +kernel
  · refine ((detection_lifecycle [turnsOn, turnsOff]).2.2 ?_).mpr ?_
    · simp [turnsOn, turnsOff, fileTamperMessage]
    · decide +kernel

end IotDeviceSdk.Service
