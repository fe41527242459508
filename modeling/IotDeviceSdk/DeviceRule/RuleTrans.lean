import IotDeviceSdk.DeviceRule.RuleManager

/-!
# `rule_trans.c`

The reaction to a shadow message: the store is compared with the properties of the shadow, the
rules marked for deletion are deleted, and the missing ones are requested from the platform.
-/

namespace IotDeviceSdk.DeviceRule

open CJson Prog

/-- What `RuleTrans_DeviceRuleUpdateByJSON` leaves and sends: the manager, the lists when
`RuleMgr_GetList` computed them, and the rules of which `DeviceRuleConfigReply` requests the ids.
The report of the properties to the platform does not touch the manager. -/
structure ShadowUpdate where
  mgr : RuleMgr
  lists : Option RuleLists := none
  configRequest : Option (List RuleInfo) := none

/-- `RuleTrans_DeviceRuleUpdateByJSON`. -/
def ruleTransDeviceRuleUpdateByJSON (properties : Option CJson) (mgr : RuleMgr) :
    Sdk ShadowUpdate := do
  -- the blocks of `delList` and of `addList`
  if !(← malloc) then return { mgr := mgr }
  if !(← malloc) then return { mgr := mgr }
  match ← ruleMgrGetList properties mgr with
  | .done _ => return { mgr := mgr }
  | .yield lists =>
    let mgr ← if lists.delList.isEmpty then pure mgr else ruleMgrDelRule lists.delList mgr
    if lists.addList.isEmpty then return { mgr := mgr, lists := some lists }
    else return { mgr := mgr, lists := some lists, configRequest := some lists.addList }

end IotDeviceSdk.DeviceRule
