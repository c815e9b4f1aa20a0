import NetAudit.Json.Record
import NetAudit.Measurement.Record

/-!
# Measurements, devices and tasks as documents
-/

namespace NetAudit

open Json

/-- A kind is written as its tag. -/
def Kind.codec : Codec Kind := Codec.string.map Kind.ofTag Kind.tag

def MeasurementId.codec : Codec MeasurementId :=
  Codec.string.map MeasurementId.mk MeasurementId.text

def DeviceId.codec : Codec DeviceId := Codec.string.map DeviceId.mk DeviceId.text

def TaskId.codec : Codec TaskId := Codec.string.map TaskId.mk TaskId.text

/-- Named texts are an object. -/
def Values.codec : Codec Values := Codec.dict Codec.string

/-- A field that may be left out or hold `null`. -/
def Json.Field.nullable (name : String) (c : Codec α) : Field :=
  Field.withDefault name c.option none

def DeviceInfo.codec : Codec DeviceInfo :=
  Codec.record "DeviceInfo" [
      Field.required "id" DeviceId.codec,
      Field.nullable "manufacturer" Codec.string,
      Field.nullable "model" Codec.string,
      Field.nullable "os" Codec.string]
    (fun (id, manufacturer, model, os, ()) => ⟨id, manufacturer, model, os⟩)
    (fun d => (d.id, d.manufacturer, d.model, d.os, ()))

def TaskInfo.codec : Codec TaskInfo :=
  Codec.record "TaskInfo" [
      Field.required "id" TaskId.codec,
      Field.required "type" Kind.codec,
      Field.nullable "tag" Codec.string,
      Field.nullable "filter" Codec.string]
    (fun (id, kind, tag, filter, ()) => ⟨id, kind, tag, filter⟩)
    (fun t => (t.id, t.kind, t.tag, t.filter, ()))

def Measurement.codec : Codec Measurement :=
  Codec.record "MeasurementRecord" [
      Field.required "id" MeasurementId.codec,
      Field.required "type" Kind.codec,
      Field.required "timestamp" Codec.instant,
      Field.required "success" Codec.bool,
      Field.withDefault "parameters" Values.codec .empty,
      Field.withDefault "values" Values.codec .empty,
      Field.required "device" DeviceId.codec,
      Field.nullable "task" TaskId.codec]
    (fun (id, kind, timestamp, success, parameters, values, device, task, ()) =>
      ⟨id, kind, timestamp, success, parameters, values, device, task⟩)
    (fun m =>
      (m.id, m.kind, m.timestamp, m.success, m.parameters, m.values, m.device, m.task, ()))

def Snapshot.codec : Codec Snapshot :=
  Codec.record "Snapshot" [
      Field.withDefault "devices" (Codec.list DeviceInfo.codec) [],
      Field.withDefault "tasks" (Codec.list TaskInfo.codec) [],
      Field.withDefault "measurements" (Codec.list Measurement.codec) []]
    (fun (devices, tasks, measurements, ()) => ⟨devices, tasks, measurements⟩)
    (fun s => (s.devices, s.tasks, s.measurements, ()))

end NetAudit
