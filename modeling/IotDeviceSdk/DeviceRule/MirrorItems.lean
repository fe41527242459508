import IotDeviceSdk.CJson.Children
import IotDeviceSdk.DeviceRule.RuleManager

/-!
# The mirror of the rules as items

What `rule_manager.c` does to the items of the mirror: `RuleJSONObjSaveToFile` puts
`g_ruleInfosListJSON` below an object of its own to print it, `RuleJSONObjDelById` takes an entry out,
and `UpdateRuleJSONObj` adds the copy of one.  `runMirror` is a run of the manager, whatever its
mirror is made of.
-/

namespace IotDeviceSdk.DeviceRule

open CJson Json

/-- The calls of `RuleJSONObjSaveToFile` on items.  `root` is what `cJSON_CreateObject` gives, and
`copied` says whether `cJSON_strdup` can copy the key. -/
def wrapMirror (root : Option ℕ) (copied : Bool) (g_ruleInfosListJSON : ℕ) (s : Nodes) :
    Option Nodes := do
  let s := (Nodes.addItemToObject copied root (some "rulesInfos") (some g_ruleInfosListJSON) s).2
  let (_, s) ← Nodes.detachItemViaPointer root (some g_ruleInfosListJSON) s
  return s

/-- The loop of `RuleJSONObjDelById` on items, undefined when it takes more than `fuel` rounds;
`entry` is what an item stands for. -/
def delFrom (entry : ℕ → CJson) (g_ruleInfosListJSON : ℕ) (ruleId : String) :
    ℕ → Option ℕ → Nodes → Sdk Nodes
  | _, none, s => pure s
  | 0, some _, _ => Prog.undefined
  | fuel + 1, some searchRule, s => do
    if ← strcmpEq (getString (entry searchRule) "ruleId") ruleId then
      let (_, s) ← Prog.ofOption
        (Nodes.detachItemViaPointer (some g_ruleInfosListJSON) (some searchRule) s)
      return s
    delFrom entry g_ruleInfosListJSON ruleId fuel (s.next searchRule) s

/-- `RuleJSONObjDelById` on items. -/
def delItemById (entry : ℕ → CJson) (g_ruleInfosListJSON : ℕ) (ruleId : Option String) (fuel : ℕ)
    (s : Nodes) : Sdk Nodes :=
  match ruleId with
  | none => pure s
  | some ruleId => delFrom entry g_ruleInfosListJSON ruleId fuel (s.child g_ruleInfosListJSON) s

/-! ### The rule manager with a mirror of items -/

/-- The items: their links, what they stand for, and how many addresses have been given to items. -/
structure MirrorItems where
  nodes : Nodes
  entry : ℕ → CJson
  used : ℕ

namespace MirrorItems

/-- `cJSON_AddItemToArray` of the result of `cJSON_Duplicate`, a new item or `NULL`. -/
def addCopy (g_ruleInfosListJSON : ℕ) (m : MirrorItems) : Option CJson → MirrorItems
  | none => { m with nodes := (Nodes.addItemToArray (some g_ruleInfosListJSON) none m.nodes).2 }
  | some copy => {
      nodes := (Nodes.addItemToArray (some g_ruleInfosListJSON) (some m.used) m.nodes).2
      entry := Function.update m.entry m.used copy
      used := m.used + 1 }

/-- `RuleJSONObjDelById`. -/
def delById (g_ruleInfosListJSON : ℕ) (m : MirrorItems) (ruleId : Option String) :
    Sdk MirrorItems := do
  let nodes ← delItemById m.entry g_ruleInfosListJSON ruleId m.used m.nodes
  return { m with nodes := nodes }

/-- `UpdateRuleJSONObj`. -/
def update (g_ruleInfosListJSON : ℕ) : ParseDeviceRuleHook MirrorItems := fun m removeOrAdd rule =>
  if removeOrAdd then m.delById g_ruleInfosListJSON (getString rule "ruleId")
  else do
    let copy ← cJsonDuplicate (some rule)
    return m.addCopy g_ruleInfosListJSON copy

end MirrorItems

/-- What the rule manager does under its lock to its store and to its mirror. -/
inductive MirrorOp where
  | parse (paras : Option CJson)
  | delRule (delList : List RuleInfo)

/-- The calls of `RuleMgr_ParseJSON` and `RuleMgr_DelRule`, whatever the mirror is made of. -/
def MirrorOp.run {τ : Type} (hook : ParseDeviceRuleHook τ) (delById : τ → Option String → Sdk τ)
    (state : List RuleInfo × τ) : MirrorOp → Sdk (List RuleInfo × τ)
  | .parse paras => do
    let (ruleInfosList, target) ← parseDeviceRuleWithHook (some hook) paras (state.1, some state.2)
    return (ruleInfosList, target.getD state.2)
  | .delRule delList => do
    let target ← delList.foldlM (fun target listItem => delById target listItem.ruleId) state.2
    let ruleInfosList ← deletRulesFromList state.1 delList
    return (ruleInfosList, target)

/-- A run of the manager. -/
def runMirror {τ : Type} (hook : ParseDeviceRuleHook τ) (delById : τ → Option String → Sdk τ)
    (ops : List MirrorOp) (state : List RuleInfo × τ) : Sdk (List RuleInfo × τ) :=
  ops.foldlM (fun state op => op.run hook delById state) state

end IotDeviceSdk.DeviceRule
