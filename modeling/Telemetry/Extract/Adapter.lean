import Telemetry.Field.Readable
import Telemetry.Field.Source

/-!
# Calls of known types

A caller that knows its own request and response types states what a
category asks of them; the fields are then answered under the names that the
service itself uses.
-/

namespace Telemetry.Extract

open Telemetry.Field (Blob Readable Reading Source)

def given [Readable α] (value : Option α) : Reading :=
  .ofOption (Readable.read value)

structure ObjectStorageCall where
  bucket : Option String

structure QueueCall where
  queueUrl : Option String := none
  queueName : Option String := none

structure StreamCall where
  streamName : Option String

structure TableCall where
  tableName : Option String
  /-- The fields of one operation, such as `Limit`. -/
  field : String → Reading := fun _ => .absent

structure ModelCall where
  modelId : Option String
  body : Option Blob

def ObjectStorageCall.source (call : ObjectStorageCall) : Source σ :=
  .ofFields fun name => match name with
    | "Bucket" => given call.bucket
    | _ => .absent

def QueueCall.source (call : QueueCall) : Source σ :=
  .ofFields fun name => match name with
    | "QueueUrl" => given call.queueUrl
    | "QueueName" => given call.queueName
    | _ => .absent

def StreamCall.source (call : StreamCall) : Source σ :=
  .ofFields fun name => match name with
    | "StreamName" => given call.streamName
    | _ => .absent

def TableCall.source (call : TableCall) : Source σ :=
  .ofFields fun name => match name with
    | "TableName" => given call.tableName
    | other => call.field other

def ModelCall.source (call : ModelCall) : Source σ :=
  .ofFields fun name => match name with
    | "modelId" => given call.modelId
    | "body" => given call.body
    | _ => .absent

end Telemetry.Extract
