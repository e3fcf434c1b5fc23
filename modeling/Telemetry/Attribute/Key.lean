/-!
# Attribute keys of the built-in tables
-/

namespace Telemetry.Attribute.Key

-- ---------------------------------------------------------------------------
-- Object storage, queues, streams
-- ---------------------------------------------------------------------------

def s3Bucket := "aws.s3.bucket"
def sqsQueueUrl := "aws.sqs.queue.url"
def sqsQueueName := "aws.sqs.queue.name"
def kinesisStreamName := "aws.kinesis.stream.name"

-- ---------------------------------------------------------------------------
-- Key-value store
-- ---------------------------------------------------------------------------

def tableNames := "aws.dynamodb.table_names"
def consumedCapacity := "aws.dynamodb.consumed_capacity"
def itemCollectionMetrics := "aws.dynamodb.item_collection_metrics"
def globalSecondaryIndexes := "aws.dynamodb.global_secondary_indexes"
def localSecondaryIndexes := "aws.dynamodb.local_secondary_indexes"
def provisionedReadCapacity := "aws.dynamodb.provisioned_read_capacity"
def provisionedWriteCapacity := "aws.dynamodb.provisioned_write_capacity"
def consistentRead := "aws.dynamodb.consistent_read"
def projection := "aws.dynamodb.projection"
def attributesToGet := "aws.dynamodb.attributes_to_get"
def indexName := "aws.dynamodb.index_name"
def limit := "aws.dynamodb.limit"
def scanForward := "aws.dynamodb.scan_forward"
def select := "aws.dynamodb.select"
def segment := "aws.dynamodb.segment"
def totalSegments := "aws.dynamodb.total_segments"
def count := "aws.dynamodb.count"
def scannedCount := "aws.dynamodb.scanned_count"
def exclusiveStartTable := "aws.dynamodb.exclusive_start_table"

-- ---------------------------------------------------------------------------
-- Notifications
-- ---------------------------------------------------------------------------

def destinationName := "messaging.destination.name"
def snsTopicArn := "aws.sns.topic.arn"

-- ---------------------------------------------------------------------------
-- Model hosting
-- ---------------------------------------------------------------------------

def guardrailId := "aws.bedrock.guardrail.id"
def guardrailArn := "aws.bedrock.guardrail.arn"
def agentId := "aws.bedrock.agent.id"
def knowledgeBaseId := "aws.bedrock.knowledge_base.id"
def dataSourceId := "aws.bedrock.data_source.id"

-- ---------------------------------------------------------------------------
-- Generative models
-- ---------------------------------------------------------------------------

def system := "gen_ai.system"
def requestModel := "gen_ai.request.model"
def requestMaxTokens := "gen_ai.request.max_tokens"
def requestTemperature := "gen_ai.request.temperature"
def requestTopP := "gen_ai.request.top_p"
def finishReasons := "gen_ai.response.finish_reasons"
def inputTokens := "gen_ai.usage.input_tokens"
def outputTokens := "gen_ai.usage.output_tokens"

-- ---------------------------------------------------------------------------
-- Workflows, secrets, functions
-- ---------------------------------------------------------------------------

def stateMachineArn := "aws.step_functions.state_machine.arn"
def activityArn := "aws.step_functions.activity.arn"
def secretArn := "aws.secretsmanager.secret.arn"
def functionName := "aws.lambda.function.name"
def functionArn := "aws.lambda.function.arn"
def resourceMappingId := "aws.lambda.resource_mapping.id"

-- ---------------------------------------------------------------------------
-- Failures
-- ---------------------------------------------------------------------------

def errorType := "error.type"

end Telemetry.Attribute.Key
