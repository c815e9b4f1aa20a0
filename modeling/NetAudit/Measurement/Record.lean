import NetAudit.Calendar.Instant
import NetAudit.Measurement.Kind
import NetAudit.OrderedMap

/-!
# Measurements, devices and tasks

What devices report, and what is known of the devices themselves and of the tasks that ask for
measurements. All three are named by texts of their own kinds.
-/

namespace NetAudit

/-- The name of a measurement. -/
structure MeasurementId where
  text : String
deriving DecidableEq

/-- The name of a device. -/
structure DeviceId where
  text : String
deriving DecidableEq

/-- The name of a task. -/
structure TaskId where
  text : String
deriving DecidableEq

instance : Ord MeasurementId := ⟨compareOn MeasurementId.text⟩

instance : Ord DeviceId := ⟨compareOn DeviceId.text⟩

instance : Ord TaskId := ⟨compareOn TaskId.text⟩

instance : Std.TransOrd MeasurementId :=
  inferInstanceAs (Std.TransCmp (compareOn MeasurementId.text))

instance : Std.TransOrd DeviceId := inferInstanceAs (Std.TransCmp (compareOn DeviceId.text))

instance : Std.TransOrd TaskId := inferInstanceAs (Std.TransCmp (compareOn TaskId.text))

instance : Std.LawfulEqOrd MeasurementId where
  compare_self := by simp
  eq_of_compare {a b} h := by
    have h : compare a.text b.text = .eq := h
    have := Std.LawfulEqCmp.eq_of_compare h
    cases a; cases b; cases this; rfl

instance : Std.LawfulEqOrd DeviceId where
  compare_self := by simp
  eq_of_compare {a b} h := by
    have h : compare a.text b.text = .eq := h
    have := Std.LawfulEqCmp.eq_of_compare h
    cases a; cases b; cases this; rfl

instance : Std.LawfulEqOrd TaskId where
  compare_self := by simp
  eq_of_compare {a b} h := by
    have h : compare a.text b.text = .eq := h
    have := Std.LawfulEqCmp.eq_of_compare h
    cases a; cases b; cases this; rfl

/-- What is known of a device. -/
structure DeviceInfo where
  id : DeviceId
  manufacturer : Option String
  model : Option String
  os : Option String
deriving DecidableEq

/-- What is known of a task. -/
structure TaskInfo where
  id : TaskId
  kind : Kind
  tag : Option String
  filter : Option String
deriving DecidableEq

/-- Named texts, as a device reports them. -/
abbrev Values := OrderedMap String String

/-- One report of a device. -/
structure Measurement where
  id : MeasurementId
  kind : Kind
  timestamp : Calendar.Instant
  success : Bool
  parameters : Values
  values : Values
  device : DeviceId
  task : Option TaskId
deriving DecidableEq

/-- Devices, tasks and measurements in the order in which they were delivered. -/
structure Snapshot where
  devices : List DeviceInfo
  tasks : List TaskInfo
  measurements : List Measurement
deriving DecidableEq

end NetAudit
