import IotDeviceSdk.Service.DetectAnomaly.LocalLogin

/-!
# The alarm of local logins

The check of a record prints a local login and returns a flag that it never sets.

* `localLoginFlag_eq_false`: so the flag of a batch stays false.
* `localLogin_right_iff`: the alarm is right exactly when no new record is a local login.
-/

namespace IotDeviceSdk.Service

variable {net : InetPton} {log : UtmpxLog} {startOffset : ℤ}

/-- A text is an address of a family. -/
def IsAddress (net : InetPton) (family : AddressFamily) (src : String) : Prop :=
  net.inet_pton family src = 1

/-- A record is that of a user who logged in from no address. -/
def IsLocalLogin (net : InetPton) (ut : Utmpx) : Prop :=
  ut.ut_type = USER_PROCESS ∧ ¬IsAddress net .inet ut.ut_host ∧ ¬IsAddress net .inet6 ut.ut_host

/-- The records a check reads. -/
def newRecords (log : UtmpxLog) (startOffset : ℤ) : List Utmpx :=
  if log.opened ∧ log.sought ∧ log.st_size ≠ none ∧ log.st_size ≠ some startOffset then log.records
  else []

/-- The alarm is reported as true when a new record is a local login, and only then. -/
def LocalLoginRight (net : InetPton) (log : UtmpxLog) (startOffset : ℤ) : Prop :=
  (localLoginCheckProcessLog net log startOffset).login_local_alarm = some true ↔
    ∃ ut ∈ newRecords log startOffset, IsLocalLogin net ut

theorem not_isAddress_iff (net : InetPton) (family : AddressFamily) (src : String) :
    ¬IsAddress net family src ↔ net.inet_pton family src = 0 := by
  unfold IsAddress
  rcases net.valid family src with h | h <;> rw [h] <;> decide

/-- **The check of a record** prints the local logins. -/
theorem localLoginCheckUtmpxItem_prints (net : InetPton) (ut : Utmpx) :
    (localLoginCheckUtmpxItem net ut).2 = true ↔ IsLocalLogin net ut := by
  unfold localLoginCheckUtmpxItem IsLocalLogin
  rw [not_isAddress_iff, not_isAddress_iff]
  split
  · rename_i h
    exact iff_of_true rfl h
  · rename_i h
    exact iff_of_false (by decide) h

/-- It returns its flag as it was initialised. -/
theorem localLoginCheckUtmpxItem_flag (net : InetPton) (ut : Utmpx) :
    (localLoginCheckUtmpxItem net ut).1 = false := by
  unfold localLoginCheckUtmpxItem
  split <;> rfl

theorem localLoginFlag_eq_false (net : InetPton) (records : List Utmpx) :
    localLoginFlag net records = false := by
  unfold localLoginFlag
  induction records with
  | nil => rfl
  | cons ut records ih =>
    rw [List.foldl_cons, localLoginCheckUtmpxItem_flag]
    exact ih

/-- The alarm is never raised. -/
theorem login_local_alarm_ne_true (net : InetPton) (log : UtmpxLog) (startOffset : ℤ) :
    (localLoginCheckProcessLog net log startOffset).login_local_alarm ≠ some true := by
  unfold localLoginCheckProcessLog
  split
  · exact nofun
  · split
    · exact nofun
    · split
      · exact nofun
      · rw [localLoginFlag_eq_false]
        exact nofun

/-- **The alarm of local logins** is right exactly when there are none among the new records. -/
theorem localLogin_right_iff (net : InetPton) (log : UtmpxLog) (startOffset : ℤ) :
    LocalLoginRight net log startOffset ↔
      ∀ ut ∈ newRecords log startOffset, ¬IsLocalLogin net ut := by
  unfold LocalLoginRight
  have hnever := login_local_alarm_ne_true net log startOffset
  constructor
  · exact fun h ut hut hlocal => hnever (h.mpr ⟨ut, hut, hlocal⟩)
  · intro h
    exact iff_of_false hnever fun ⟨ut, hut, hlocal⟩ => h ut hut hlocal

instance (net : InetPton) (ut : Utmpx) : Decidable (IsLocalLogin net ut) :=
  inferInstanceAs (Decidable (ut.ut_type = USER_PROCESS ∧ ¬net.inet_pton .inet ut.ut_host = 1 ∧
    ¬net.inet_pton .inet6 ut.ut_host = 1))

/-- An `inet_pton` that takes no text for an address. -/
def noAddresses : InetPton := ⟨fun _ _ => 0, fun _ _ => Or.inl rfl⟩

/-- A login on the console is not reported. -/
theorem not_localLoginRight_console :
    ¬∀ net log startOffset, LocalLoginRight net log startOffset := by
  intro h
  have hright := h noAddresses ⟨true, some 384, true, [⟨USER_PROCESS, "tty1"⟩], 384⟩ 0
  exact absurd (hright.mpr ⟨⟨USER_PROCESS, "tty1"⟩, by decide, by decide⟩) (by decide)

end IotDeviceSdk.Service
