import Telemetry.Mapping.Registry

/-!
# The built-in categories and operations
-/

namespace Telemetry.Mapping

open FieldMapping (request response requestCount responseCount body)
open Attribute

-- ---------------------------------------------------------------------------
-- Category names
-- ---------------------------------------------------------------------------

namespace CategoryName

def objectStorage := "object-storage"
def queueing := "queueing"
def stream := "stream"
def keyValueStore := "key-value-store"
def notification := "notification"
def guardrail := "guardrail"
def agent := "agent"
def agentRuntime := "agent-runtime"
def dataSource := "data-source"
def knowledgeBase := "knowledge-base"
def modelInvocation := "model-invocation"
def stateMachine := "state-machine"
def secretStore := "secret-store"
def function := "function"

end CategoryName

-- ---------------------------------------------------------------------------
-- Categories
-- ---------------------------------------------------------------------------

def bodyPath : FieldPath := "body"

def objectStorage : Category where
  name := CategoryName.objectStorage
  request := [request Key.s3Bucket "Bucket"]

def queueing : Category where
  name := CategoryName.queueing
  request := [request Key.sqsQueueUrl "QueueUrl", request Key.sqsQueueName "QueueName"]

def stream : Category where
  name := CategoryName.stream
  request := [request Key.kinesisStreamName "StreamName"]

def keyValueStore : Category where
  name := CategoryName.keyValueStore
  request := [request Key.tableNames "TableName"]

/-- A target names the destination as well as a topic does; the topic counts
if both are given. -/
def notification : Category where
  name := CategoryName.notification
  request := [
    request Key.destinationName "TargetArn",
    request Key.destinationName "TopicArn",
    request Key.snsTopicArn "TopicArn"]

def guardrail : Category where
  name := CategoryName.guardrail
  request := [request Key.guardrailId "guardrailIdentifier"]
  response := [response Key.guardrailArn "guardrailArn"]

def agent : Category where
  name := CategoryName.agent
  request := [request Key.agentId "agentId"]
  response := [response Key.agentId "agentId"]

def agentRuntime : Category where
  name := CategoryName.agentRuntime
  request := [
    request Key.agentId "agentId",
    request Key.knowledgeBaseId "knowledgeBaseId"]
  response := [
    response Key.agentId "agentId",
    response Key.knowledgeBaseId "knowledgeBaseId"]

def dataSource : Category where
  name := CategoryName.dataSource
  request := [request Key.dataSourceId "dataSourceId"]
  response := [response Key.dataSourceId "dataSourceId"]

def knowledgeBase : Category where
  name := CategoryName.knowledgeBase
  request := [request Key.knowledgeBaseId "knowledgeBaseId"]
  response := [response Key.knowledgeBaseId "knowledgeBaseId"]

def modelInvocation : Category where
  name := CategoryName.modelInvocation
  request := [
    request Key.requestModel "modelId",
    body Payload.maxTokens bodyPath .request,
    body Payload.temperature bodyPath .request,
    body Payload.topP bodyPath .request,
    body Payload.inputTokens bodyPath .request]
  response := [
    body Payload.finishReasons bodyPath .response,
    body Payload.inputTokens bodyPath .response,
    body Payload.outputTokens bodyPath .response]

def stateMachine : Category where
  name := CategoryName.stateMachine
  request := [
    request Key.stateMachineArn "stateMachineArn",
    request Key.activityArn "activityArn"]

def secretStore : Category where
  name := CategoryName.secretStore
  response := [response Key.secretArn "ARN"]

def function : Category where
  name := CategoryName.function
  request := [
    request Key.functionName "FunctionName",
    request Key.resourceMappingId "UUID"]
  response := [response Key.functionArn ⟨"Configuration", ["FunctionArn"]⟩]

def builtinCategories : List Category :=
  [objectStorage, queueing, stream, keyValueStore, notification, guardrail, agent, agentRuntime,
    dataSource, knowledgeBase, modelInvocation, stateMachine, secretStore, function]

def Registry.builtin : Registry :=
  .ofTable builtinCategories

-- ---------------------------------------------------------------------------
-- Operations
-- ---------------------------------------------------------------------------

def requestItems := request Key.tableNames "RequestItems"
def consumedCapacity := response Key.consumedCapacity "ConsumedCapacity"
def consistentRead := request Key.consistentRead "ConsistentRead"
def projection := request Key.projection "ProjectionExpression"
def attributesToGet := request Key.attributesToGet "AttributesToGet"
def indexName := request Key.indexName "IndexName"
def limit := requestCount Key.limit "Limit"
def select := request Key.select "Select"

def batchGetItem : Operation where
  name := "BatchGetItem"
  category := CategoryName.keyValueStore
  fields := [requestItems, consumedCapacity]

def batchWriteItem : Operation where
  name := "BatchWriteItem"
  category := CategoryName.keyValueStore
  fields := [requestItems, consumedCapacity,
    response Key.itemCollectionMetrics "ItemCollectionMetrics"]

def createTable : Operation where
  name := "CreateTable"
  category := CategoryName.keyValueStore
  fields := [
    request Key.globalSecondaryIndexes "GlobalSecondaryIndexes",
    request Key.localSecondaryIndexes "LocalSecondaryIndexes",
    requestCount Key.provisionedReadCapacity ⟨"ProvisionedThroughput", ["ReadCapacityUnits"]⟩,
    requestCount Key.provisionedWriteCapacity ⟨"ProvisionedThroughput", ["WriteCapacityUnits"]⟩]

def getItem : Operation where
  name := "GetItem"
  category := CategoryName.keyValueStore
  fields := [projection, consistentRead, consumedCapacity]

def query : Operation where
  name := "Query"
  category := CategoryName.keyValueStore
  fields := [attributesToGet, consistentRead, indexName, limit, projection,
    request Key.scanForward "ScanIndexForward", select, consumedCapacity]

def scan : Operation where
  name := "Scan"
  category := CategoryName.keyValueStore
  fields := [attributesToGet, consistentRead, indexName, limit, projection,
    requestCount Key.segment "Segment", requestCount Key.totalSegments "TotalSegments",
    select, responseCount Key.count "Count", responseCount Key.scannedCount "ScannedCount",
    consumedCapacity]

def listTables : Operation where
  name := "ListTables"
  category := CategoryName.keyValueStore
  fields := [request Key.exclusiveStartTable "ExclusiveStartTableName", limit]

def invokeModel : Operation where
  name := "InvokeModel"
  category := CategoryName.modelInvocation

def builtinOperations : List Operation :=
  [batchGetItem, batchWriteItem, createTable, getItem, query, scan, listTables, invokeModel]

def Operation.lookup? (name : String) : Option Operation :=
  builtinOperations.find? (·.name == name)

end Telemetry.Mapping
