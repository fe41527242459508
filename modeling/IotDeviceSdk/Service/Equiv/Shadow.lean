import IotDeviceSdk.Service.CallbackFunc.Shadow

/-!
# The entries of a shadow response

`OnShadowGetResponseArrived` fills one slot for each entry and stays at it after an entry of the SDK
itself, whose blocks it frees: what such an entry wrote is left over for the next one.

* `onShadowStep_returns`, `onShadowLoop_returns`: the loop computes `decodedSlots`, and its blocks
  are `decodedHeap`.
* `ownFields_iff`: a slot filled over a leftover has the fields of its own entry exactly when the
  entry is `EntryFaithful`.
* `shadow_decoded_iff`: the array handed over has the fields of its own entries exactly when the
  entries are `Faithful`.
-/

namespace IotDeviceSdk.Service

open CJson Prog

/-! ### The parts of an entry -/

variable (env : Env)

/-- `service_id` of an entry. -/
def entryServiceId (entry : CJson) : Option String :=
  jsonGetStringFromObject entry "service_id" "-1"

/-- A part of an entry, `desired` or `reported`. -/
def entryPart (entry : CJson) (key : String) : Option CJson := jsonGetObjectFromObject entry key

/-- The event time of a part. -/
def partTime (part : Option CJson) : Option String :=
  part.bind fun part => jsonGetStringFromObject part "event_time" "-1"

/-- The text of the properties of a part. -/
def partText (part : Option CJson) : Option String :=
  part.bind fun part => (jsonGetObjectFromObject part "properties").bind env.printJson

/-- Whether an entry is one of the SDK itself. -/
def isInternalEntry (entry : CJson) : Bool := (entryServiceId entry).any isInternalService

/-! ### What the loop computes -/

/-- The slot after the desired part, whose text goes to the block `b`. -/
def fillDesired (b : ℕ) (slot : ShadowData) (part : Option CJson) : ShadowData :=
  match part with
  | none => slot
  | some desired =>
    { slot with
      desired_event_time := partTime desired
      desired_properties := (partText env desired).map fun _ => b }

/-- The slot after the reported part. -/
def fillReported (b : ℕ) (slot : ShadowData) (part : Option CJson) : ShadowData :=
  match part with
  | none => slot
  | some reported =>
    { slot with
      desired_event_time := partTime reported
      reported_properties := (partText env reported).map fun _ => b }

/-- The texts printed for an entry. -/
def entryTexts (entry : CJson) : List String :=
  (partText env (entryPart entry "desired")).toList ++
    (partText env (entryPart entry "reported")).toList

/-- The slot after an entry, when `b` blocks were allocated before it. -/
def fillSlot (b : ℕ) (slot : ShadowData) (entry : CJson) : ShadowData :=
  let slot := { slot with service_id := entryServiceId entry }
  let slot := fillDesired env b slot (entryPart entry "desired")
  let slot := fillReported env
    (b + (partText env (entryPart entry "desired")).toList.length) slot (entryPart entry "reported")
  { slot with version := jsonGetIntFromObject entry "version" (-1) }

/-- The slots that are handed over, when the first is filled over `slot`. -/
def decodedSlots : ℕ → ShadowData → List CJson → List ShadowData
  | _, _, [] => []
  | b, slot, entry :: entries =>
    let filled := fillSlot env b slot entry
    let b := b + (entryTexts env entry).length
    if isInternalEntry entry then decodedSlots b filled entries
    else filled :: decodedSlots b {} entries

/-- The blocks of an entry after its round: those of the SDK's own entries are freed. -/
def entryBlocks (entry : CJson) : Heap :=
  (entryTexts env entry).map fun text => if isInternalEntry entry then none else some text

/-- The blocks of all entries. -/
def decodedHeap (entries : List CJson) : Heap := (entries.map (entryBlocks env)).flatten

/-! ### One round -/

/-- A loop about to fill the first of the slots `rest`. -/
structure AtSlot (loop : ShadowLoop) (done rest : List ShadowData) (m : ℕ) : Prop where
  shadow : loop.shadow = done ++ rest
  i : loop.i = done.length
  desired_str : ∃ strs, strs.length = done.length ∧
    loop.desired_str = strs ++ List.replicate m none
  reported_str : ∃ strs, strs.length = done.length ∧
    loop.reported_str = strs ++ List.replicate m none

variable {env : Env} {loop : ShadowLoop} {done rest : List ShadowData} {slot : ShadowData}

theorem write_eq (hshadow : loop.shadow = done ++ slot :: rest) (hi : loop.i = done.length)
    (f : ShadowData → ShadowData) :
    loop.write f = pure { loop with shadow := done ++ f slot :: rest } := by
  unfold ShadowLoop.write
  rw [hshadow, modifySlot_eq (by rw [hi])]
  rfl

theorem write_returns (hshadow : loop.shadow = done ++ slot :: rest) (hi : loop.i = done.length)
    (f : ShadowData → ShadowData) :
    Returns env (loop.write f) fun loop' =>
      loop' = { loop with shadow := done ++ f slot :: rest } := by
  rw [write_eq hshadow hi]
  exact returns_pure rfl

theorem print_returns (loop : ShadowLoop) (properties : Option CJson) :
    Returns env (loop.print properties) fun r =>
      r = ((properties.bind env.printJson).map fun _ => loop.heap.length,
        { loop with heap := loop.heap ++ (properties.bind env.printJson).toList.map some }) := by
  unfold ShadowLoop.print cJsonPrint
  refine (ask_returns _).bind fun text htext => ?_
  subst htext
  cases properties.bind env.printJson with
  | none => exact returns_pure (by simp)
  | some text => exact returns_pure rfl

variable {strs strs' : List (Option ℕ)}

theorem readDesired_returns (hshadow : loop.shadow = done ++ slot :: rest)
    (hi : loop.i = done.length) (hlength : strs.length = done.length)
    (hstr : loop.desired_str = strs ++ none :: strs') (part : Option CJson) :
    Returns env (loop.readDesired part) fun loop' => loop' =
      { loop with
        shadow := done ++ fillDesired env loop.heap.length slot part :: rest
        desired_str := strs ++ (partText env part).map (fun _ => loop.heap.length) :: strs'
        heap := loop.heap ++ (partText env part).toList.map some } := by
  cases part with
  | none =>
    refine returns_pure ?_
    show loop = { loop with
      shadow := done ++ slot :: rest
      desired_str := strs ++ none :: strs'
      heap := loop.heap ++ [] }
    rw [← hshadow, ← hstr, List.append_nil]
  | some desired =>
    unfold ShadowLoop.readDesired
    dsimp only
    rw [write_eq hshadow hi, pure_bind]
    refine (print_returns _ _).bind fun r hr => ?_
    subst hr
    dsimp only
    rw [hstr, modifySlot_eq (by rw [hi, hlength]), pure_bind]
    apply Returns.mono
    · apply write_returns
      · rfl
      · exact hi
    · exact fun _ h => h

theorem readReported_returns (hshadow : loop.shadow = done ++ slot :: rest)
    (hi : loop.i = done.length) (hlength : strs.length = done.length)
    (hstr : loop.reported_str = strs ++ none :: strs') (part : Option CJson) :
    Returns env (loop.readReported part) fun loop' => loop' =
      { loop with
        shadow := done ++ fillReported env loop.heap.length slot part :: rest
        reported_str := strs ++ (partText env part).map (fun _ => loop.heap.length) :: strs'
        heap := loop.heap ++ (partText env part).toList.map some } := by
  cases part with
  | none =>
    refine returns_pure ?_
    show loop = { loop with
      shadow := done ++ slot :: rest
      reported_str := strs ++ none :: strs'
      heap := loop.heap ++ [] }
    rw [← hshadow, ← hstr, List.append_nil]
  | some reported =>
    unfold ShadowLoop.readReported
    dsimp only
    rw [write_eq hshadow hi, pure_bind]
    refine (print_returns _ _).bind fun r hr => ?_
    subst hr
    dsimp only
    rw [hstr, modifySlot_eq (by rw [hi, hlength]), pure_bind]
    apply Returns.mono
    · apply write_returns
      · rfl
      · exact hi
    · exact fun _ h => h

/-- The blocks of a part are freed through its pointer. -/
theorem free_part (heap after : Heap) (text : Option String) :
    (heap ++ (text.toList.map some ++ after)).free (text.map fun _ => heap.length) =
      heap ++ (text.toList.map (fun _ => none) ++ after) := by
  cases text with
  | none => rfl
  | some text =>
    show (heap ++ some text :: after).set heap.length none = heap ++ none :: after
    rw [List.set_append_right _ _ (le_refl _), Nat.sub_self]
    rfl

theorem freeStrs_returns {rtrs rtrs' : List (Option ℕ)} {heap : Heap}
    {desired reported : Option String} (hi : loop.i = done.length)
    (hlength : strs.length = done.length) (hlength' : rtrs.length = done.length)
    (hdesired : loop.desired_str = strs ++ desired.map (fun _ => heap.length) :: strs')
    (hreported : loop.reported_str =
      rtrs ++ reported.map (fun _ => heap.length + desired.toList.length) :: rtrs')
    (hheap : loop.heap = heap ++ (desired.toList.map some ++ reported.toList.map some)) :
    Returns env loop.freeStrs fun loop' => loop' =
      { loop with
        desired_str := strs ++ none :: strs'
        reported_str := rtrs ++ none :: rtrs'
        heap := heap ++ (desired.toList ++ reported.toList).map fun _ => none } := by
  have hindex : (loop.i : ℤ) = strs.length := by rw [hi, hlength]
  have hindex' : (loop.i : ℤ) = rtrs.length := by rw [hi, hlength']
  have hfree : (loop.heap.free (desired.map fun _ => heap.length)).free
      (reported.map fun _ => heap.length + desired.toList.length) =
      heap ++ (desired.toList ++ reported.toList).map fun _ => none := by
    have hlength : (heap ++ desired.toList.map fun _ => (none : Option String)).length =
        heap.length + desired.toList.length := by simp
    rw [hheap, free_part, ← List.append_assoc, ← hlength]
    have hreported := free_part (heap ++ desired.toList.map fun _ => none) [] reported
    rw [List.append_nil, List.append_nil] at hreported
    rw [hreported, List.append_assoc, ← List.map_append]
  unfold ShadowLoop.freeStrs
  rw [hdesired, hreported, readSlot_eq hindex, pure_bind, readSlot_eq hindex', pure_bind,
    modifySlot_eq hindex, pure_bind, modifySlot_eq hindex', pure_bind, hfree]
  exact returns_pure rfl

/-- The strings before the next slot. -/
theorem exists_after {m : ℕ} {text : Option ℕ} {filled : ShadowData}
    (hlength : strs.length = done.length) :
    ∃ strs', strs'.length = (done ++ [filled]).length ∧
      strs ++ text :: List.replicate m none = strs' ++ List.replicate m none :=
  ⟨strs ++ [text], by simp [hlength], by simp⟩

/-- A slot is filled with the fields of an entry before the entry is looked at. -/
theorem fill_bind {strs' rtrs rtrs' : List (Option ℕ)} {entry : CJson}
    {rest' : ShadowLoop → Sdk ShadowLoop} {Q : ShadowLoop → Prop}
    (hshadow : loop.shadow = done ++ slot :: rest) (hi : loop.i = done.length)
    (hlength : strs.length = done.length) (hlength' : rtrs.length = done.length)
    (hdesired : loop.desired_str = strs ++ none :: strs')
    (hreported : loop.reported_str = rtrs ++ none :: rtrs')
    (hrest : Returns env (rest' { loop with
      shadow := done ++ fillSlot env loop.heap.length slot entry :: rest
      desired_str := strs ++
        (partText env (entryPart entry "desired")).map (fun _ => loop.heap.length) :: strs'
      reported_str := rtrs ++ (partText env (entryPart entry "reported")).map
        (fun _ => loop.heap.length + (partText env (entryPart entry "desired")).toList.length) ::
        rtrs'
      heap := loop.heap ++ (entryTexts env entry).map some }) Q) :
    Returns env (do
      let loop ← loop.write fun slot => { slot with service_id := entryServiceId entry }
      let loop ← loop.readDesired (entryPart entry "desired")
      let loop ← loop.readReported (entryPart entry "reported")
      let loop ← loop.write fun slot =>
        { slot with version := jsonGetIntFromObject entry "version" (-1) }
      rest' loop) Q := by
  -- the reported text is allocated behind the desired one
  have hblocks : (loop.heap ++
      (partText env (entryPart entry "desired")).toList.map some).length =
      loop.heap.length + (partText env (entryPart entry "desired")).toList.length := by
    rw [List.length_append, List.length_map]
  rw [write_eq hshadow hi, pure_bind]
  apply Returns.bind
  · apply readDesired_returns
    · rfl
    · exact hi
    · exact hlength
    · exact hdesired
  rintro loop₁ rfl
  apply Returns.bind
  · apply readReported_returns
    · rfl
    · exact hi
    · exact hlength'
    · exact hreported
  rintro loop₂ rfl
  apply Returns.bind
  · apply write_returns
    · rfl
    · exact hi
  rintro loop₃ rfl
  rw [entryTexts, List.map_append, ← List.append_assoc] at hrest
  dsimp only
  rw [hblocks]
  exact hrest

/-- **One round.** -/
theorem onShadowStep_returns {m : ℕ} {entry : CJson} (hat : AtSlot loop done (slot :: rest) (m + 1))
    (hid : (entryServiceId entry).isSome = true) (hcalls : NoRequestId loop.calls) :
    Returns env (onShadowStep loop entry) fun loop' =>
      loop'.heap = loop.heap ++ entryBlocks env entry ∧ NoRequestId loop'.calls ∧
        if isInternalEntry entry then
          AtSlot loop' done (fillSlot env loop.heap.length slot entry :: rest) (m + 1)
        else AtSlot loop' (done ++ [fillSlot env loop.heap.length slot entry]) rest m := by
  obtain ⟨hshadow, hi, ⟨strs, hlength, hdesired⟩, ⟨rtrs, hlength', hreported⟩⟩ := hat
  rw [List.replicate_succ] at hdesired hreported
  obtain ⟨service_id, hid⟩ := Option.isSome_iff_exists.mp hid
  have hinternal : isInternalEntry entry = isInternalService service_id := by
    rw [isInternalEntry, hid]
    rfl
  apply fill_bind hshadow hi hlength hlength' hdesired hreported
  dsimp only
  rw [show jsonGetStringFromObject entry "service_id" "-1" = some service_id from hid]
  dsimp only
  rw [hinternal]
  split
  · rename_i hservice
    have hindex : (loop.i : ℤ) = strs.length := by rw [hi, hlength]
    rw [readSlot_eq hindex, pure_bind]
    refine Returns.mono (@freeStrs_returns env _ done strs _ rtrs (List.replicate m none) loop.heap
      (partText env (entryPart entry "desired")) (partText env (entryPart entry "reported"))
      hi hlength hlength' rfl rfl ?_) ?_
    · rw [entryTexts, List.map_append]
    · rintro loop' rfl
      refine ⟨?_, hcalls.append (internalServiceCalls_noRequestId _ _), rfl, hi,
        ⟨strs, hlength, rfl⟩, ⟨rtrs, hlength', rfl⟩⟩
      rw [entryBlocks, hinternal]
      simp [hservice, entryTexts]
  · rename_i hservice
    refine returns_pure ⟨?_, hcalls, ?_, ?_, exists_after hlength, exists_after hlength'⟩
    · rw [entryBlocks, hinternal]
      simp [hservice]
    · simp
    · show loop.i + 1 = _
      rw [hi, List.length_append]
      rfl

/-! ### The loop -/

/-- **The loop** computes the slots and the blocks of the entries. -/
theorem onShadowLoop_returns {entries : List CJson} {m : ℕ} (hat : AtSlot loop done rest m)
    (hfresh : ∀ slot ∈ rest.tail, slot = {}) (hslots : entries.length ≤ rest.length)
    (hstrs : entries.length ≤ m) (hids : ∀ entry ∈ entries, (entryServiceId entry).isSome = true)
    (hcalls : NoRequestId loop.calls) :
    Returns env (entries.foldlM onShadowStep loop) fun loop' =>
      loop'.shadow.take loop'.i =
          done ++ decodedSlots env loop.heap.length (rest.headD {}) entries ∧
        loop'.heap = loop.heap ++ decodedHeap env entries ∧ NoRequestId loop'.calls := by
  induction entries generalizing loop done rest m with
  | nil =>
    refine returns_pure ⟨?_, (List.append_nil _).symm, hcalls⟩
    rw [hat.shadow, hat.i, List.take_left]
    exact (List.append_nil _).symm
  | cons entry entries ih =>
    obtain ⟨slot, rest, rfl⟩ := List.exists_cons_of_length_pos (Nat.lt_of_lt_of_le (by simp) hslots)
    obtain ⟨m, rfl⟩ : ∃ m', m = m' + 1 := Nat.exists_eq_add_one.mpr (by simp at hstrs; omega)
    rw [List.foldlM_cons]
    refine (onShadowStep_returns hat (hids entry (by simp)) hcalls).bind fun loop' hloop' => ?_
    obtain ⟨hheap, hcalls', hat'⟩ := hloop'
    have hids' : ∀ e ∈ entries, (entryServiceId e).isSome = true :=
      fun e he => hids e (by simp [he])
    have hlength : loop'.heap.length = loop.heap.length + (entryTexts env entry).length := by
      rw [hheap, List.length_append, entryBlocks, List.length_map]
    have hblocks : loop.heap ++ decodedHeap env (entry :: entries) =
        loop'.heap ++ decodedHeap env entries := by
      rw [hheap, List.append_assoc]
      rfl
    by_cases hinternal : isInternalEntry entry = true
    · -- an internal entry leaves the slot to the next one
      rw [if_pos hinternal] at hat'
      refine (ih hat' hfresh (by simp at hslots ⊢; omega) (by simp at hstrs; omega) hids'
        hcalls').mono fun loop'' h => ⟨?_, h.2.1.trans hblocks.symm, h.2.2⟩
      rw [h.1, hlength, decodedSlots, if_pos hinternal]
      rfl
    · rw [if_neg hinternal] at hat'
      -- the next entry starts with an empty slot
      have hfresh' : ∀ slot ∈ rest.tail, slot = {} :=
        fun slot hslot => hfresh slot (List.mem_of_mem_tail hslot)
      have hhead : rest.headD {} = {} := by
        cases rest with
        | nil => rfl
        | cons slot' rest => exact hfresh slot' (by simp)
      refine (ih hat' hfresh' (by simp at hslots; omega) (by simp at hstrs; omega) hids'
        hcalls').mono fun loop'' h => ⟨?_, h.2.1.trans hblocks.symm, h.2.2⟩
      rw [h.1, hlength, hhead, decodedSlots, if_neg hinternal, List.append_assoc]
      rfl

/-- The entries of a response. -/
def shadowEntries (env : Env) (arrival : Arrival) : List CJson :=
  forEachItems (jsonGetObjectFromObject (env.parseJson arrival.message) "shadow")

/-- Every call without a request id is one to another module of the SDK, and the one with the
request id hands over the entries. -/
theorem onShadowGetResponseArrived_returns {arrival : Arrival} {requestId_value : String}
    (htopic : strstr arrival.topic "=" = some requestId_value)
    (hids : ∀ entry ∈ shadowEntries env arrival, (entryServiceId entry).isSome = true)
    (bridgeDeviceId : Option String) :
    Returns env (onShadowGetResponseArrived arrival bridgeDeviceId) fun calls =>
      (∀ call ∈ calls, call.requestId = none ∨ ∃ ds, call = .onDeviceShadow ds ∧
        ds.request_id = String.ofList requestId_value.toList.tail ∧
        ds.shadow = decodedSlots env 0 {} (shadowEntries env arrival) ∧
        ds.heap = decodedHeap env (shadowEntries env arrival)) ∧
      (env.AllocsSucceed → (shadowEntries env arrival).length < MAX_SERVICE_COUNT →
        ∃ ds, .onDeviceShadow ds ∈ calls) := by
  unfold onShadowGetResponseArrived
  rw [withRequestId_eq, htopic]
  refine withMessage_returns (by simp) ((ask_returns _).bind fun root hroot => ?_)
  subst hroot
  dsimp only
  rw [jsonGetArraySize_eq]
  split
  · rename_i hcount
    exact returns_pure ⟨by simp, fun _ hfits => absurd hfits (not_lt.mpr hcount)⟩
  · rename_i hcount
    let loop : ShadowLoop := { shadow := List.replicate (shadowEntries env arrival).length {} }
    have hat : AtSlot loop [] (List.replicate (shadowEntries env arrival).length {})
        MAX_SERVICE_COUNT := ⟨rfl, rfl, ⟨[], rfl, rfl⟩, ⟨[], rfl, rfl⟩⟩
    have hfresh : ∀ slot ∈ (List.replicate (shadowEntries env arrival).length {}).tail,
        slot = ({} : ShadowData) := by
      intro slot hslot
      exact List.eq_of_mem_replicate (List.mem_of_mem_tail hslot)
    have hhead : (List.replicate (shadowEntries env arrival).length {}).headD {} =
        ({} : ShadowData) := by
      cases (shadowEntries env arrival).length with
      | zero => rfl
      | succ n => rfl
    have hloop := @onShadowLoop_returns env loop [] _ (shadowEntries env arrival) MAX_SERVICE_COUNT
      hat hfresh (by simp) (not_le.mp hcount).le hids (by simp [NoRequestId, loop])
    refine returns_allocated (by simp) (hloop.bind fun loop' hloop' => ?_)
    obtain ⟨hslots, hheap, hcalls⟩ := hloop'
    rw [hhead] at hslots
    refine returns_pure ⟨fun call hcall => ?_, fun _ _ =>
      ⟨_, List.mem_append_right _ (List.mem_singleton.mpr rfl)⟩⟩
    rcases List.mem_append.mp hcall with hcall | hcall
    · exact Or.inl (hcalls call hcall)
    · exact Or.inr ⟨_, List.mem_singleton.mp hcall, rfl, hslots, hheap⟩

/-! ### The fields of an entry -/

/-- A pointer is `NULL` where there is no text, and refers to a block that holds the text where
there is one. -/
def Holds (heap : Heap) (p : Option ℕ) (text : Option String) : Prop :=
  p.map (fun b => heap[b]?) = text.map fun text => some (some text)

/-- A slot has the fields of an entry; those of a part that is absent are `NULL`. -/
structure OwnFields (env : Env) (heap : Heap) (entry : CJson) (slot : ShadowData) : Prop where
  service_id : slot.service_id = entryServiceId entry
  version : slot.version = jsonGetIntFromObject entry "version" (-1)
  desired_event_time : slot.desired_event_time = partTime (entryPart entry "desired")
  desired_properties :
    Holds heap slot.desired_properties (partText env (entryPart entry "desired"))
  reported_event_time : slot.reported_event_time = partTime (entryPart entry "reported")
  reported_properties :
    Holds heap slot.reported_properties (partText env (entryPart entry "reported"))

/-- What entries of the SDK itself leave in a slot: an event time, and whether there are pointers to
their properties. -/
structure Leftover where
  event_time : Option String := none
  desired : Bool := false
  reported : Bool := false

/-- What an entry leaves on top of a leftover. -/
def Leftover.after (env : Env) (leftover : Leftover) (entry : CJson) : Leftover where
  event_time :=
    if (entryPart entry "reported").isSome then partTime (entryPart entry "reported")
    else if (entryPart entry "desired").isSome then partTime (entryPart entry "desired")
    else leftover.event_time
  desired :=
    if (entryPart entry "desired").isSome then (partText env (entryPart entry "desired")).isSome
    else leftover.desired
  reported :=
    if (entryPart entry "reported").isSome then (partText env (entryPart entry "reported")).isSome
    else leftover.reported

/-- An entry has no event time that would be lost, and hides what was left in its slot: a reported
part has no text as its event time and comes with no desired part that has one, and an absent part
finds nothing left over. -/
structure EntryFaithful (leftover : Leftover) (entry : CJson) : Prop where
  reported : (entryPart entry "reported").isSome = true →
    partTime (entryPart entry "reported") = none ∧ partTime (entryPart entry "desired") = none
  desired_absent : (entryPart entry "desired").isSome = false → leftover.desired = false
  reported_absent : (entryPart entry "reported").isSome = false → leftover.reported = false
  both_absent : (entryPart entry "desired").isSome = false →
    (entryPart entry "reported").isSome = false → leftover.event_time = none

/-- Every entry that is handed over is faithful to what the entries before it left. -/
def Faithful (env : Env) : Leftover → List CJson → Prop
  | _, [] => True
  | leftover, entry :: entries =>
    if isInternalEntry entry then Faithful env (leftover.after env entry) entries
    else EntryFaithful leftover entry ∧ Faithful env {} entries

/-- A slot has this left in it. -/
structure Leaves (leftover : Leftover) (slot : ShadowData) : Prop where
  event_time : slot.desired_event_time = leftover.event_time
  desired : slot.desired_properties.isSome = leftover.desired
  reported : slot.reported_properties.isSome = leftover.reported
  /-- The reported event time is never written. -/
  reported_event_time : slot.reported_event_time = none

theorem leaves_fresh : Leaves {} {} := ⟨rfl, rfl, rfl, rfl⟩

variable {leftover : Leftover} {entry : CJson} {b : ℕ}

theorem fillSlot_service_id (b : ℕ) (slot : ShadowData) (entry : CJson) :
    (fillSlot env b slot entry).service_id = entryServiceId entry := by
  unfold fillSlot fillReported fillDesired
  cases entryPart entry "reported" <;> cases entryPart entry "desired" <;> rfl

theorem fillSlot_desired_event_time (b : ℕ) (slot : ShadowData) (entry : CJson) :
    (fillSlot env b slot entry).desired_event_time =
      if (entryPart entry "reported").isSome then partTime (entryPart entry "reported")
      else if (entryPart entry "desired").isSome then partTime (entryPart entry "desired")
      else slot.desired_event_time := by
  unfold fillSlot fillReported fillDesired
  cases entryPart entry "reported" <;> cases entryPart entry "desired" <;> rfl

theorem fillSlot_desired_properties (b : ℕ) (slot : ShadowData) (entry : CJson) :
    (fillSlot env b slot entry).desired_properties =
      if (entryPart entry "desired").isSome then
        (partText env (entryPart entry "desired")).map fun _ => b
      else slot.desired_properties := by
  unfold fillSlot fillReported fillDesired
  cases entryPart entry "reported" <;> cases entryPart entry "desired" <;> rfl

theorem fillSlot_reported_event_time (b : ℕ) (slot : ShadowData) (entry : CJson) :
    (fillSlot env b slot entry).reported_event_time = slot.reported_event_time := by
  unfold fillSlot fillReported fillDesired
  cases entryPart entry "reported" <;> cases entryPart entry "desired" <;> rfl

theorem fillSlot_reported_properties (b : ℕ) (slot : ShadowData) (entry : CJson) :
    (fillSlot env b slot entry).reported_properties =
      if (entryPart entry "reported").isSome then
        (partText env (entryPart entry "reported")).map fun _ =>
          b + (partText env (entryPart entry "desired")).toList.length
      else slot.reported_properties := by
  unfold fillSlot fillReported fillDesired
  cases entryPart entry "reported" <;> cases entryPart entry "desired" <;> rfl

theorem Leaves.after (h : Leaves leftover slot) (b : ℕ) (entry : CJson) :
    Leaves (leftover.after env entry) (fillSlot env b slot entry) where
  event_time := by
    rw [fillSlot_desired_event_time, h.event_time]
    rfl
  desired := by
    rw [fillSlot_desired_properties, Leftover.after, ← h.desired]
    split
    · exact Option.isSome_map
    · rfl
  reported := by
    rw [fillSlot_reported_properties, Leftover.after, ← h.reported]
    split
    · exact Option.isSome_map
    · rfl
  reported_event_time := by rw [fillSlot_reported_event_time, h.reported_event_time]

theorem holds_none_iff {heap : Heap} {p : Option ℕ} : Holds heap p none ↔ p = none := by
  unfold Holds
  cases p with
  | none => simp
  | some b => simp

/-- A block that was just printed holds its text. -/
theorem holds_printed (heap after : Heap) (text : Option String) :
    Holds (heap ++ (text.toList.map some ++ after)) (text.map fun _ => heap.length) text := by
  cases text with
  | none => rfl
  | some text =>
    show some ((heap ++ some text :: after)[heap.length]?) = _
    rw [List.getElem?_append_right (le_refl _), Nat.sub_self]
    rfl

theorem holds_printed_after (heap after : Heap) (text text' : Option String) :
    Holds (heap ++ ((text.toList ++ text'.toList).map some ++ after))
      (text'.map fun _ => heap.length + text.toList.length) text' := by
  have hprinted := holds_printed (heap ++ text.toList.map some) after text'
  rw [List.length_append, List.length_map, List.append_assoc,
    ← List.append_assoc (text.toList.map some), ← List.map_append] at hprinted
  exact hprinted

/-- The event times of a slot: a reported part has its own in the wrong field. -/
theorem fillSlot_times_iff (h : Leaves leftover slot) (b : ℕ) :
    ((fillSlot env b slot entry).desired_event_time = partTime (entryPart entry "desired") ∧
        (fillSlot env b slot entry).reported_event_time =
          partTime (entryPart entry "reported")) ↔
      ((entryPart entry "reported").isSome = true →
        partTime (entryPart entry "reported") = none ∧
          partTime (entryPart entry "desired") = none) ∧
      ((entryPart entry "desired").isSome = false →
        (entryPart entry "reported").isSome = false → leftover.event_time = none) := by
  rw [fillSlot_desired_event_time, fillSlot_reported_event_time, h.event_time,
    h.reported_event_time]
  cases entryPart entry "reported" with
  | none => cases entryPart entry "desired" <;> simp [partTime]
  | some reported =>
    simp only [Option.isSome_some, if_true]
    constructor
    · rintro ⟨hdesired, hreported⟩
      exact ⟨fun _ => ⟨hreported.symm, hdesired.symm.trans hreported.symm⟩, by simp⟩
    · rintro ⟨hboth, -⟩
      exact ⟨(hboth trivial).1.trans (hboth trivial).2.symm, (hboth trivial).1.symm⟩

/-- The desired properties of a slot are its entry's unless they are left over. -/
theorem fillSlot_desired_iff (h : Leaves leftover slot) (heap after : Heap) :
    Holds (heap ++ ((entryTexts env entry).map some ++ after))
        (fillSlot env heap.length slot entry).desired_properties
        (partText env (entryPart entry "desired")) ↔
      ((entryPart entry "desired").isSome = false → leftover.desired = false) := by
  rw [fillSlot_desired_properties]
  cases hpart : entryPart entry "desired" with
  | none =>
    simp [partText, holds_none_iff, ← h.desired]
  | some desired =>
    refine iff_of_true ?_ (by simp)
    have hprinted := holds_printed heap
      ((partText env (entryPart entry "reported")).toList.map some ++ after)
      (partText env (entryPart entry "desired"))
    rw [← List.append_assoc (List.map some _), ← List.map_append, hpart] at hprinted
    unfold entryTexts
    rw [hpart]
    exact hprinted

/-- The reported properties of a slot are its entry's unless they are left over. -/
theorem fillSlot_reported_iff (h : Leaves leftover slot) (heap after : Heap) :
    Holds (heap ++ ((entryTexts env entry).map some ++ after))
        (fillSlot env heap.length slot entry).reported_properties
        (partText env (entryPart entry "reported")) ↔
      ((entryPart entry "reported").isSome = false → leftover.reported = false) := by
  rw [fillSlot_reported_properties]
  cases hpart : entryPart entry "reported" with
  | none =>
    simp [partText, holds_none_iff, ← h.reported]
  | some reported =>
    refine iff_of_true ?_ (by simp)
    have hprinted := holds_printed_after heap after (partText env (entryPart entry "desired"))
      (partText env (entryPart entry "reported"))
    rw [hpart] at hprinted
    unfold entryTexts
    rw [hpart]
    exact hprinted

/-- **The fields of an entry** that is filled over a leftover are its own exactly when it is
faithful to the leftover. -/
theorem ownFields_iff (h : Leaves leftover slot) (heap after : Heap) :
    OwnFields env (heap ++ ((entryTexts env entry).map some ++ after)) entry
        (fillSlot env heap.length slot entry) ↔ EntryFaithful leftover entry := by
  have htimes := @fillSlot_times_iff env slot leftover entry h heap.length
  have hdesired := @fillSlot_desired_iff env slot leftover entry h heap after
  have hreported := @fillSlot_reported_iff env slot leftover entry h heap after
  constructor
  · intro hown
    have hfaithful := htimes.mp ⟨hown.desired_event_time, hown.reported_event_time⟩
    exact ⟨hfaithful.1, hdesired.mp hown.desired_properties,
      hreported.mp hown.reported_properties, hfaithful.2⟩
  · intro hfaithful
    have hown := htimes.mpr ⟨hfaithful.reported, hfaithful.both_absent⟩
    exact ⟨fillSlot_service_id _ _ _, rfl, hown.1, hdesired.mpr hfaithful.desired_absent, hown.2,
      hreported.mpr hfaithful.reported_absent⟩

/-! ### The array that is handed over -/

/-- The entries that are handed over. -/
def keptEntries (entries : List CJson) : List CJson :=
  entries.filter fun entry => !isInternalEntry entry

/-- The blocks a slot refers to. -/
def slotPointers (slot : ShadowData) : List ℕ :=
  slot.desired_properties.toList ++ slot.reported_properties.toList

theorem ownSlots_iff (heap : Heap) (h : Leaves leftover slot) (entries : List CJson) :
    List.Forall₂ (OwnFields env (heap ++ decodedHeap env entries)) (keptEntries entries)
        (decodedSlots env heap.length slot entries) ↔ Faithful env leftover entries := by
  induction entries generalizing heap slot leftover with
  | nil => simp [keptEntries, decodedSlots, Faithful]
  | cons entry entries ih =>
    have hlength : (heap ++ entryBlocks env entry).length =
        heap.length + (entryTexts env entry).length := by
      rw [List.length_append, entryBlocks, List.length_map]
    have hheap : heap ++ decodedHeap env (entry :: entries) =
        heap ++ entryBlocks env entry ++ decodedHeap env entries := by
      rw [List.append_assoc]
      rfl
    rw [hheap, keptEntries, decodedSlots, Faithful, ← hlength]
    by_cases hinternal : isInternalEntry entry = true
    · rw [if_pos hinternal, if_pos hinternal, List.filter_cons_of_neg (by simp [hinternal])]
      exact ih (heap ++ entryBlocks env entry) (h.after heap.length entry)
    · have hblocks : entryBlocks env entry = (entryTexts env entry).map some := by
        rw [entryBlocks]
        simp [hinternal]
      rw [if_neg hinternal, if_neg hinternal, List.filter_cons_of_pos (by simp [hinternal]),
        List.forall₂_cons, ← ih (heap ++ entryBlocks env entry) leaves_fresh,
        ← ownFields_iff h heap (decodedHeap env entries), ← List.append_assoc heap, ← hblocks]
      rfl

/-- A faithful slot refers to the blocks printed for its entry. -/
theorem slotPointers_eq (h : Leaves leftover slot) (hfaithful : EntryFaithful leftover entry)
    (b : ℕ) :
    slotPointers (fillSlot env b slot entry) = List.range' b (entryTexts env entry).length := by
  have hdesired : (fillSlot env b slot entry).desired_properties =
      (partText env (entryPart entry "desired")).map fun _ => b := by
    rw [fillSlot_desired_properties]
    cases hpart : entryPart entry "desired" with
    | none =>
      have hleft := hfaithful.desired_absent (by rw [hpart]; rfl)
      rw [← h.desired, Option.isSome_eq_false_iff, Option.isNone_iff_eq_none] at hleft
      exact hleft
    | some desired => rfl
  have hreported : (fillSlot env b slot entry).reported_properties =
      (partText env (entryPart entry "reported")).map fun _ =>
        b + (partText env (entryPart entry "desired")).toList.length := by
    rw [fillSlot_reported_properties]
    cases hpart : entryPart entry "reported" with
    | none =>
      have hleft := hfaithful.reported_absent (by rw [hpart]; rfl)
      rw [← h.reported, Option.isSome_eq_false_iff, Option.isNone_iff_eq_none] at hleft
      exact hleft
    | some reported => rfl
  rw [slotPointers, hdesired, hreported, entryTexts]
  cases partText env (entryPart entry "desired") <;>
    cases partText env (entryPart entry "reported") <;> rfl

/-- The blocks that faithful slots refer to are different ones. -/
theorem slotPointers_nodup (h : Leaves leftover slot) {entries : List CJson}
    (hfaithful : Faithful env leftover entries) (b : ℕ) :
    (∀ p ∈ (decodedSlots env b slot entries).flatMap slotPointers, b ≤ p) ∧
      ((decodedSlots env b slot entries).flatMap slotPointers).Nodup := by
  induction entries generalizing b slot leftover with
  | nil => simp [decodedSlots]
  | cons entry entries ih =>
    rw [decodedSlots]
    rw [Faithful] at hfaithful
    by_cases hinternal : isInternalEntry entry = true
    · rw [if_pos hinternal] at hfaithful ⊢
      obtain ⟨hbound, hnodup⟩ := ih (h.after b entry) hfaithful (b + (entryTexts env entry).length)
      exact ⟨fun p hp => le_trans (Nat.le_add_right _ _) (hbound p hp), hnodup⟩
    · rw [if_neg hinternal] at hfaithful ⊢
      obtain ⟨hbound, hnodup⟩ := ih leaves_fresh hfaithful.2 (b + (entryTexts env entry).length)
      rw [List.flatMap_cons, slotPointers_eq h hfaithful.1]
      refine ⟨fun p hp => ?_, List.nodup_append.mpr ⟨List.nodup_range', hnodup, ?_⟩⟩
      · rcases List.mem_append.mp hp with hp | hp
        · exact (List.mem_range'_1.mp hp).1
        · exact le_trans (Nat.le_add_right _ _) (hbound p hp)
      · -- the blocks of the entries after it come after its own
        intro p hp q hq
        have hlt := (List.mem_range'_1.mp hp).2
        have hle := hbound q hq
        omega

/-- The array that is handed over has the fields of its own entries, in their order, and refers to
different blocks. -/
def DeliversOwn (env : Env) (entries : List CJson) (ds : DeviceShadow) : Prop :=
  List.Forall₂ (OwnFields env ds.heap) (keptEntries entries) ds.shadow ∧
    (ds.shadow.flatMap slotPointers).Nodup

/-- What is handed over, with or without a request id in the topic. -/
theorem onShadowGetResponseArrived_yields {arrival : Arrival}
    (hids : ∀ entry ∈ shadowEntries env arrival, (entryServiceId entry).isSome = true)
    (bridgeDeviceId : Option String) :
    Yields env (onShadowGetResponseArrived arrival bridgeDeviceId) fun calls =>
      ∀ ds, .onDeviceShadow ds ∈ calls →
        ds.shadow = decodedSlots env 0 {} (shadowEntries env arrival) ∧
        ds.heap = decodedHeap env (shadowEntries env arrival) := by
  cases htopic : strstr arrival.topic "=" with
  | none =>
    unfold onShadowGetResponseArrived
    rw [withRequestId_eq, htopic]
    exact yields_undefined
  | some requestId_value =>
    refine (onShadowGetResponseArrived_returns htopic hids bridgeDeviceId).yields.mono
      fun calls hcalls ds hds => ?_
    rcases hcalls.1 _ hds with hnone | ⟨ds', heq, -, hown⟩
    · cases hnone
    · obtain rfl := Call.onDeviceShadow.inj heq
      exact hown

/-- **The entries of a shadow response** are handed over with their own fields exactly when they are
faithful. -/
theorem shadow_decoded_iff {env : Env} {arrival : Arrival}
    (hids : ∀ entry ∈ shadowEntries env arrival, (entryServiceId entry).isSome = true)
    {bridgeDeviceId : Option String} {calls : List Call}
    (hcalls : Outcome env (onShadowGetResponseArrived arrival bridgeDeviceId) calls)
    {ds : DeviceShadow} (hds : .onDeviceShadow ds ∈ calls) :
    DeliversOwn env (shadowEntries env arrival) ds ↔
      Faithful env {} (shadowEntries env arrival) := by
  obtain ⟨hshadow, hheap⟩ :=
    onShadowGetResponseArrived_yields hids bridgeDeviceId calls hcalls ds hds
  have hown := @ownSlots_iff env {} {} [] leaves_fresh (shadowEntries env arrival)
  unfold DeliversOwn
  rw [hshadow, hheap]
  constructor
  · exact fun h => hown.mp h.1
  · exact fun h => ⟨hown.mpr h, (slotPointers_nodup leaves_fresh h 0).2⟩

/-- An entry of a service with one part. -/
def sampleEntry (entry : String × String) : CJson :=
  .object [("service_id", .string entry.1), ("version", .number 1),
    (entry.2, .object [("event_time", .string "20260101T000000Z"),
      ("properties", .object [("on", .bool true)])])]

/-- Its text. -/
def sampleEntryText (entry : String × String) : String :=
  "\x7b\"service_id\":\"" ++ entry.1 ++ "\",\"version\":1,\"" ++ entry.2 ++
    "\":\x7b\"event_time\":\"20260101T000000Z\",\"properties\":\x7b\"on\":true\x7d\x7d\x7d"

/-- A response with such entries. -/
def sampleResponse (entries : List (String × String)) : Arrival where
  info := { messageId := 1, code := 0 }
  topic := "$oc/devices/lamp/sys/shadow/get/response/request_id=1"
  message := "\x7b\"shadow\":[" ++ ",".intercalate (entries.map sampleEntryText) ++ "]\x7d"
  messageLength := 112

/-- The texts of this response. -/
def sampleResponseEnv (entries : List (String × String)) : Env :=
  { Env.plentiful with
    parseJson := fun value =>
      if value = (sampleResponse entries).message then
        some (.object [("shadow", .array (entries.map sampleEntry))])
      else none
    printJson := fun _ => some "\x7b\n\t\"on\":\ttrue\n\x7d" }

section SampleResponse

variable {entries : List (String × String)}

theorem shadowEntries_sample :
    shadowEntries (sampleResponseEnv entries) (sampleResponse entries) =
      entries.map sampleEntry := by
  have hparse : (sampleResponseEnv entries).parseJson (sampleResponse entries).message =
      some (.object [("shadow", .array (entries.map sampleEntry))]) := if_pos rfl
  unfold shadowEntries
  rw [hparse]
  simp [jsonGetObjectFromObject, getObjectItem, caseInsensitiveEq]

theorem sampleEntry_id :
    ∀ entry ∈ shadowEntries (sampleResponseEnv entries) (sampleResponse entries),
      (entryServiceId entry).isSome = true := by
  rw [shadowEntries_sample]
  intro entry hentry
  obtain ⟨sample, -, rfl⟩ := List.mem_map.mp hentry
  simp [entryServiceId, jsonGetStringFromObject, sampleEntry, getObjectItem, caseInsensitiveEq,
    valuestring]

theorem sampleResponse_fits (hfew : entries.length < MAX_SERVICE_COUNT) :
    (shadowEntries (sampleResponseEnv entries) (sampleResponse entries)).length <
      MAX_SERVICE_COUNT := by
  rw [shadowEntries_sample, List.length_map]
  exact hfew

/-- A response with few enough entries is handed over. -/
theorem onShadowGetResponseArrived_sample (hfew : entries.length < MAX_SERVICE_COUNT) :
    Returns (sampleResponseEnv entries)
      (onShadowGetResponseArrived (sampleResponse entries) none) fun calls =>
        ∃ ds, .onDeviceShadow ds ∈ calls := by
  have htopic : strstr (sampleResponse entries).topic "=" = some "=1" := by
    show strstr "$oc/devices/lamp/sys/shadow/get/response/request_id=1" "=" = some "=1"
    decide
  exact (onShadowGetResponseArrived_returns htopic sampleEntry_id none).mono
    fun calls hcalls => hcalls.2 (fun _ => rfl) (sampleResponse_fits hfew)

end SampleResponse

/-- An entry with a desired part hides a desired part that was left. -/
theorem entryFaithful_desired {leftover : Leftover} (service_id : String)
    (hleft : leftover.reported = false) :
    EntryFaithful leftover (sampleEntry (service_id, "desired")) := by
  have hdesired : (entryPart (sampleEntry (service_id, "desired")) "desired").isSome = true := by
    simp [entryPart, jsonGetObjectFromObject, sampleEntry, getObjectItem, caseInsensitiveEq]
  have hreported : (entryPart (sampleEntry (service_id, "desired")) "reported").isSome = false := by
    simp [entryPart, jsonGetObjectFromObject, sampleEntry, getObjectItem, caseInsensitiveEq]
  refine ⟨fun h => ?_, fun h => ?_, fun _ => hleft, fun h => ?_⟩
  · rw [hreported] at h
    cases h
  · rw [hdesired] at h
    cases h
  · rw [hdesired] at h
    cases h

/-- Two ordinary entries with an internal one between them. -/
def lampAndFan : List (String × String) :=
  [("lamp", "desired"), ("$security_detection_config", "desired"), ("fan", "desired")]

theorem shadow_decoded_iff_lampAndFan :
    ∃ calls ds, Outcome (sampleResponseEnv lampAndFan)
      (onShadowGetResponseArrived (sampleResponse lampAndFan) none) calls ∧
      .onDeviceShadow ds ∈ calls ∧ ds.shadow.length = 2 ∧
      DeliversOwn (sampleResponseEnv lampAndFan) (lampAndFan.map sampleEntry) ds := by
  obtain ⟨calls, hcalls, ds, hds⟩ :=
    (@onShadowGetResponseArrived_sample lampAndFan (by decide)).exists_outcome
  have hiff := shadow_decoded_iff sampleEntry_id hcalls hds
  rw [shadowEntries_sample] at hiff
  have hown : DeliversOwn (sampleResponseEnv lampAndFan) (lampAndFan.map sampleEntry) ds := by
    refine hiff.mpr ?_
    have hinternal : isInternalEntry (sampleEntry ("$security_detection_config", "desired")) =
      true := by decide
    have hlamp : isInternalEntry (sampleEntry ("lamp", "desired")) = false := by decide
    have hfan : isInternalEntry (sampleEntry ("fan", "desired")) = false := by decide
    rw [lampAndFan, List.map_cons, List.map_cons, List.map_cons, List.map_nil, Faithful,
      if_neg (by simp [hlamp]), Faithful, if_pos hinternal, Faithful, if_neg (by simp [hfan])]
    exact ⟨entryFaithful_desired "lamp" rfl, entryFaithful_desired "fan" rfl, trivial⟩
  refine ⟨calls, ds, hcalls, hds, ?_, hown⟩
  rw [← hown.1.length_eq]
  decide

/-- The event time of a reported part is handed over as the desired one. -/
theorem reported_event_time_lost :
    ¬∀ (env : Env) (arrival : Arrival) (bridgeDeviceId : Option String) (calls : List Call)
      (ds : DeviceShadow), (shadowEntries env arrival).length < MAX_SERVICE_COUNT →
      (∀ entry ∈ shadowEntries env arrival, (entryServiceId entry).isSome = true) →
      Outcome env (onShadowGetResponseArrived arrival bridgeDeviceId) calls →
      .onDeviceShadow ds ∈ calls → DeliversOwn env (shadowEntries env arrival) ds := by
  intro hclaim
  have hfew : [("lamp", "reported")].length < MAX_SERVICE_COUNT := by decide
  obtain ⟨calls, hcalls, ds, hds⟩ := (onShadowGetResponseArrived_sample hfew).exists_outcome
  have hown := hclaim _ _ none calls ds (sampleResponse_fits hfew) sampleEntry_id hcalls hds
  obtain ⟨hshadow, -⟩ := onShadowGetResponseArrived_yields sampleEntry_id none calls hcalls ds hds
  have hfields := hown.1
  rw [hshadow, shadowEntries_sample] at hfields
  have htime := (List.forall₂_cons.mp hfields).1.reported_event_time
  rw [fillSlot_reported_event_time] at htime
  have hreported : partTime (entryPart (sampleEntry ("lamp", "reported")) "reported") =
      some "20260101T000000Z" := by decide
  rw [hreported] at htime
  cases htime

end IotDeviceSdk.Service
