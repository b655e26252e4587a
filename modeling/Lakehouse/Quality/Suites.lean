import Lakehouse.Dbt.Build
import Lakehouse.Quality.Expectations

/-!
# Suites

The nine suites of `quality/great-expectations/expectations`, the tables they are run on with the
columns of `data/models/iceberg` and of the dbt models, and the checkpoint of each layer
(`quality/great-expectations/checkpoints`).
-/

namespace Lakehouse.Quality

open Lib Batch

/-! ## Columns -/

section Columns

variable {ρ : Type}

/-- A text column. -/
def text (column : ρ → Option String) (r : ρ) : Option Value := (column r).map .text

/-- A column of integers. -/
def integer (column : ρ → Option Int) (r : ρ) : Option Value := (column r).map fun n => .number n

/-- A column of counts, which is never null. -/
def count (column : ρ → Nat) (r : ρ) : Option Value := some (.number (column r))

/-- A column of amounts, in their currency. -/
def amount (column : ρ → Option (Dec 18)) (r : ρ) : Option Value :=
  (column r).map fun n => .number (n.val / 100)

/-- A column of times. -/
def timestamp (column : ρ → Option Int) (r : ρ) : Option Value := (column r).map .timestamp

/-- A column of dates. -/
def date (column : ρ → Option Int) (r : ρ) : Option Value := (column r).map .date

end Columns

/-! ## Tables -/

/-- `raw.kafka_events`. -/
def kafkaEventsFrame (rows : Multiset EventRow) : Frame EventRow where
  columns :=
    [("event_id", text fun r => some r.eventId), ("topic", text fun r => some r.topic),
      ("partition", count EventRow.partition), ("offset", count EventRow.offset),
      ("event_ts", timestamp fun r => some r.eventTs),
      ("ingested_at", timestamp fun r => some r.ingestedAt), ("msg_key", text EventRow.msgKey),
      ("payload", text EventRow.payload)]
  rows := rows

/-- The tables of the CDC topics. -/
def cdcFrame (rows : Multiset CdcRow) : Frame CdcRow where
  columns :=
    [("cdc_id", text fun r => some r.cdcId), ("op", text CdcRow.op), ("ts_ms", integer CdcRow.tsMs),
      ("source_db", text CdcRow.sourceDb), ("source_table", text CdcRow.sourceTable),
      ("txn_id", integer CdcRow.txnId), ("before", text CdcRow.before), ("after", text CdcRow.after),
      ("ingested_at", timestamp fun r => some r.ingestedAt)]
  rows := rows

/-- `silver.orders`. -/
def ordersFrame (rows : Multiset SilverOrder) : Frame SilverOrder where
  columns :=
    [("order_id", text SilverOrder.orderId), ("customer_id", text SilverOrder.customerId),
      ("status", text SilverOrder.status), ("total_amount", amount SilverOrder.totalAmount),
      ("currency", text SilverOrder.currency), ("created_at", timestamp SilverOrder.createdAt),
      ("updated_at", timestamp SilverOrder.updatedAt), ("_source_op", text SilverOrder.sourceOp),
      ("_ingested_at", timestamp fun r => some r.ingestedAt)]
  rows := rows

/-- `silver.customers`. -/
def customersFrame (rows : Multiset SilverCustomer) : Frame SilverCustomer where
  columns :=
    [("customer_id", text SilverCustomer.customerId), ("name", text SilverCustomer.name),
      ("email", text SilverCustomer.email), ("created_at", timestamp SilverCustomer.createdAt),
      ("updated_at", timestamp SilverCustomer.updatedAt),
      ("_source_op", text SilverCustomer.sourceOp),
      ("_ingested_at", timestamp fun r => some r.ingestedAt)]
  rows := rows

/-- `silver.order_items`. -/
def orderItemsFrame (rows : Multiset SilverOrderItem) : Frame SilverOrderItem where
  columns :=
    [("item_id", text fun r => r.itemId), ("order_id", text fun r => r.orderId),
      ("product_id", text fun r => r.productId), ("quantity", integer fun r => r.quantity),
      ("unit_price", amount fun r => r.unitPrice), ("line_total", amount fun r => r.lineTotal),
      ("order_created_at", timestamp SilverOrderItem.orderCreatedAt),
      ("_ingested_at", timestamp fun r => some r.ingestedAt)]
  rows := rows

/-- `gold.daily_revenue`. -/
def dailyRevenueFrame (rows : Multiset DailyRevenue) : Frame DailyRevenue where
  columns :=
    [("report_date", date DailyRevenue.reportDate), ("currency", text DailyRevenue.currency),
      ("order_count", count DailyRevenue.orderCount),
      ("item_count", integer fun r => some r.itemCount),
      ("gross_revenue", amount DailyRevenue.grossRevenue),
      ("net_revenue", amount DailyRevenue.netRevenue),
      ("avg_order_value", amount DailyRevenue.avgOrderValue),
      ("new_customers", count DailyRevenue.newCustomers),
      ("computed_at", timestamp fun r => some r.computedAt)]
  rows := rows

/-- `gold.customer_metrics`. -/
def customerMetricsFrame (rows : Multiset CustomerMetrics) : Frame CustomerMetrics where
  columns :=
    [("customer_id", text CustomerMetrics.customerId),
      ("country_code", text CustomerMetrics.countryCode), ("segment", text CustomerMetrics.segment),
      ("first_order_date", date CustomerMetrics.firstOrderDate),
      ("last_order_date", date CustomerMetrics.lastOrderDate),
      ("total_orders", count CustomerMetrics.totalOrders),
      ("total_revenue", amount fun r => some r.totalRevenue),
      ("avg_order_value", amount fun r => some r.avgOrderValue),
      ("days_since_last_order", integer CustomerMetrics.daysSinceLastOrder),
      ("is_churned", fun r => some (.boolean r.isChurned)),
      ("computed_at", timestamp fun r => some r.computedAt)]
  rows := rows

/-! ## Patterns -/

/-- `[0-9a-f]`. -/
def hexDigit : CharClass := .oneOf [('0', '9'), ('a', 'f')]

/-- `^[0-9a-f]{8}-[0-9a-f]{4}-[0-9a-f]{4}-[0-9a-f]{4}-[0-9a-f]{12}$`. -/
def uuidRegex : Pattern :=
  [(hexDigit, .exactly 8), (.literal '-', .exactly 1), (hexDigit, .exactly 4),
    (.literal '-', .exactly 1), (hexDigit, .exactly 4), (.literal '-', .exactly 1),
    (hexDigit, .exactly 4), (.literal '-', .exactly 1), (hexDigit, .exactly 12)]

/-- `^[a-zA-Z0-9._-]+$`. -/
def topicRegex : Pattern :=
  [(.oneOf [('a', 'z'), ('A', 'Z'), ('0', '9'), ('.', '.'), ('_', '_'), ('-', '-')], .oneOrMore)]

/-- `[^@\s]`: neither `@` nor white space. -/
def mailChar : CharClass := .noneOf [('@', '@'), (' ', ' '), ('\t', '\r')]

/-- `^[^@\s]+@[^@\s]+\.[^@\s]+$`. -/
def emailRegex : Pattern :=
  [(mailChar, .oneOrMore), (.literal '@', .exactly 1), (mailChar, .oneOrMore),
    (.literal '.', .exactly 1), (mailChar, .oneOrMore)]

/-- `^[A-Z]{n}$`. -/
def upperRegex (n : Nat) : Pattern := [(.oneOf [('A', 'Z')], .exactly n)]

/-- The bounds `2024-01-01T00:00:00` and `2024-01-01`. -/
def firstDate : Int := daysOfCivil 2024 1 1

/-! ## Bronze -/

/-- `expectations/bronze_kafka_events.json`. -/
def bronzeKafkaEvents : Suite where
  expectationSuiteName := "bronze_kafka_events"
  expectations :=
    [.tableRowCountToBeBetween (some 1) none,
      .tableColumnsToMatchOrderedList ["event_id", "topic", "partition", "offset", "event_ts",
        "ingested_at", "msg_key", "payload"],
      .columnValues "event_id" .notBeNull 1,
      .columnValues "event_id" .beUnique 1,
      .columnValues "event_id" (.matchRegex uuidRegex) 1,
      .columnValues "topic" .notBeNull 1,
      .columnValues "topic" (.matchRegex topicRegex) 1,
      .columnValues "partition" .notBeNull 1,
      .columnValues "partition" (.beBetween (some (.number 0)) none) 1,
      .columnValues "offset" .notBeNull 1,
      .columnValues "offset" (.beBetween (some (.number 0)) none) 1,
      .columnValues "event_ts" .notBeNull 1,
      .columnMaxToBeBetween "event_ts" (some (.timestamp (firstDate * microsPerDay))) none,
      .columnValues "ingested_at" .notBeNull 1,
      .columnValues "payload" .notBeNull 1,
      .columnValues "payload" (.valueLengthsBeBetween (some 2) none) 1]

/-- What the suites of the three CDC tables have in common. -/
def cdcExpectations : List Expectation :=
  [.tableRowCountToBeBetween (some 1) none,
    .tableColumnsToMatchOrderedList ["cdc_id", "op", "ts_ms", "source_db", "source_table", "txn_id",
      "before", "after", "ingested_at"],
    .columnValues "cdc_id" .notBeNull 1,
    .columnValues "cdc_id" .beUnique 1,
    .columnValues "cdc_id" (.matchRegex uuidRegex) 1,
    .columnValues "op" .notBeNull 1,
    .columnValues "op" (.beInSet [.text "c", .text "u", .text "d", .text "r"]) 1,
    .columnValues "ts_ms" .notBeNull 1,
    .columnValues "ts_ms" (.beBetween (some (.number 1000000000000)) none) 1,
    .columnValues "source_db" .notBeNull 1,
    .columnValues "source_table" .notBeNull 1,
    .columnValues "after" .notBeNull (9 / 10),
    .columnValues "ingested_at" .notBeNull 1]

/-- `expectations/bronze_cdc_orders.json`. -/
def bronzeCdcOrders : Suite where
  expectationSuiteName := "bronze_cdc_orders"
  expectations := cdcExpectations ++
    [.columnProportionOfUniqueValuesToBeBetween "cdc_id" (some 1) (some 1)]

/-- `expectations/bronze_cdc_customers.json`. -/
def bronzeCdcCustomers : Suite := ⟨"bronze_cdc_customers", cdcExpectations⟩

/-- `expectations/bronze_cdc_order_items.json`. -/
def bronzeCdcOrderItems : Suite := ⟨"bronze_cdc_order_items", cdcExpectations⟩

/-! ## Silver -/

/-- `expectations/silver_orders.json`. -/
def silverOrders : Suite where
  expectationSuiteName := "silver_orders"
  expectations :=
    [.tableRowCountToBeBetween (some 1) none,
      .tableColumnsToMatchOrderedList ["order_id", "customer_id", "status", "total_amount",
        "currency", "created_at", "updated_at", "_source_op", "_ingested_at"],
      .columnValues "order_id" .notBeNull 1,
      .columnValues "order_id" .beUnique 1,
      .columnValues "order_id" (.valueLengthsBeBetween (some 1) (some 128)) 1,
      .columnValues "customer_id" .notBeNull 1,
      .columnValues "customer_id" (.valueLengthsBeBetween (some 1) (some 128)) 1,
      .columnValues "status" (.beInSet [.text "pending", .text "confirmed", .text "shipped",
        .text "delivered", .text "completed", .text "cancelled"]) (999 / 1000),
      .columnValues "total_amount" (.beBetween (some (.number 0)) none) (999 / 1000),
      .columnValues "currency" (.matchRegex (upperRegex 3)) (999 / 1000),
      .columnValues "created_at" .notBeNull 1,
      .columnMaxToBeBetween "created_at" (some (.timestamp (firstDate * microsPerDay))) none,
      .columnPairValuesAToBeGreaterThanB "updated_at" "created_at" true (999 / 1000),
      .columnValues "_source_op" (.beInSet [.text "c", .text "u", .text "r"]) 1,
      .columnValues "_ingested_at" .notBeNull 1]

/-- `expectations/silver_customers.json`. -/
def silverCustomers : Suite where
  expectationSuiteName := "silver_customers"
  expectations :=
    [.tableRowCountToBeBetween (some 1) none,
      .tableColumnsToMatchOrderedList ["customer_id", "name", "email", "created_at", "updated_at",
        "_source_op", "_ingested_at"],
      .columnValues "customer_id" .notBeNull 1,
      .columnValues "customer_id" .beUnique 1,
      .columnValues "name" (.valueLengthsBeBetween (some 1) (some 200)) (99 / 100),
      .columnValues "email" (.matchRegex emailRegex) (99 / 100),
      .columnValues "email" (.valueLengthsBeBetween (some 5) (some 320)) 1,
      .columnValues "created_at" .notBeNull 1,
      .columnPairValuesAToBeGreaterThanB "updated_at" "created_at" true (999 / 1000),
      .columnValues "_source_op" (.beInSet [.text "c", .text "u", .text "r"]) 1,
      .columnValues "_ingested_at" .notBeNull 1]

/-- `expectations/silver_order_items.json`. -/
def silverOrderItems : Suite where
  expectationSuiteName := "silver_order_items"
  expectations :=
    [.tableRowCountToBeBetween (some 1) none,
      .tableColumnsToMatchOrderedList ["item_id", "order_id", "product_id", "quantity",
        "unit_price", "line_total", "order_created_at", "_ingested_at"],
      .columnValues "item_id" .notBeNull 1,
      .columnValues "item_id" .beUnique 1,
      .columnValues "order_id" .notBeNull 1,
      .columnValues "product_id" .notBeNull 1,
      .columnValues "quantity" .notBeNull 1,
      .columnValues "quantity" (.beBetween (some (.number 1)) (some (.number 10000))) 1,
      .columnValues "unit_price" .notBeNull 1,
      .columnValues "unit_price" (.beBetween (some (.number 0)) none) (999 / 1000),
      .columnValues "line_total" .notBeNull 1,
      .columnValues "line_total" (.beBetween (some (.number 0)) none) (999 / 1000),
      .columnValues "order_created_at" .notBeNull (99 / 100),
      .columnValues "_ingested_at" .notBeNull 1]

/-! ## Gold -/

/-- `expectations/gold_daily_revenue.json`. -/
def goldDailyRevenue : Suite where
  expectationSuiteName := "gold_daily_revenue"
  expectations :=
    [.tableRowCountToBeBetween (some 1) none,
      .tableColumnsToMatchOrderedList ["report_date", "currency", "order_count", "item_count",
        "gross_revenue", "net_revenue", "avg_order_value", "new_customers", "computed_at"],
      .columnValues "report_date" .notBeNull 1,
      .columnMaxToBeBetween "report_date" (some (.date firstDate)) none,
      .columnValues "currency" .notBeNull 1,
      .columnValues "currency" (.matchRegex (upperRegex 3)) 1,
      .compoundColumnsToBeUnique ["report_date", "currency"],
      .columnValues "order_count" .notBeNull 1,
      .columnValues "order_count" (.beBetween (some (.number 0)) none) 1,
      .columnValues "item_count" (.beBetween (some (.number 0)) none) 1,
      .columnValues "gross_revenue" .notBeNull 1,
      .columnValues "gross_revenue" (.beBetween (some (.number 0)) none) 1,
      .columnValues "net_revenue" .notBeNull 1,
      .columnValues "net_revenue" (.beBetween (some (.number 0)) none) 1,
      .columnPairValuesAToBeGreaterThanB "gross_revenue" "net_revenue" true (999 / 1000),
      .columnValues "avg_order_value" (.beBetween (some (.number 0)) none) 1,
      .columnValues "new_customers" (.beBetween (some (.number 0)) none) 1,
      .columnValues "computed_at" .notBeNull 1]

/-- `expectations/gold_customer_metrics.json`. -/
def goldCustomerMetrics : Suite where
  expectationSuiteName := "gold_customer_metrics"
  expectations :=
    [.tableRowCountToBeBetween (some 1) none,
      .tableColumnsToMatchOrderedList ["customer_id", "country_code", "segment", "first_order_date",
        "last_order_date", "total_orders", "total_revenue", "avg_order_value",
        "days_since_last_order", "is_churned", "computed_at"],
      .columnValues "customer_id" .notBeNull 1,
      .columnValues "customer_id" .beUnique 1,
      .columnValues "country_code" (.matchRegex (upperRegex 2)) (999 / 1000),
      .columnValues "segment" (.beInSet [.text "consumer", .text "business", .text "vip"])
        (999 / 1000),
      .columnPairValuesAToBeGreaterThanB "last_order_date" "first_order_date" true (999 / 1000),
      .columnValues "total_orders" .notBeNull 1,
      .columnValues "total_orders" (.beBetween (some (.number 0)) none) 1,
      .columnValues "total_revenue" .notBeNull 1,
      .columnValues "total_revenue" (.beBetween (some (.number 0)) none) 1,
      .columnValues "avg_order_value" (.beBetween (some (.number 0)) none) 1,
      .columnValues "days_since_last_order"
        (.beBetween (some (.number 0)) (some (.number 36500))) 1,
      .columnValues "is_churned" (.beInSet [.boolean true, .boolean false]) 1,
      .columnValues "computed_at" .notBeNull 1]

/-! ## Checkpoints -/

/-- The tables the gate reads. -/
structure Tables (bucketHash : String → Nat) where
  bronze : Bronze
  silver : Silver bucketHash
  gold : Dbt.Gold

/-- The checkpoint of a layer on some tables. -/
def checkpoint {bucketHash : String → Nat} (tables : Tables bucketHash) : Layer → CheckpointResult
  | .bronze => .ofValidations
    [bronzeKafkaEvents.validate (kafkaEventsFrame tables.bronze.kafkaEvents),
      bronzeCdcOrders.validate (cdcFrame (tables.bronze.cdc .cdcOrders)),
      bronzeCdcCustomers.validate (cdcFrame (tables.bronze.cdc .cdcCustomers)),
      bronzeCdcOrderItems.validate (cdcFrame (tables.bronze.cdc .cdcOrderItems))]
  | .silver => .ofValidations
    [silverOrders.validate (ordersFrame tables.silver.orders.rows),
      silverCustomers.validate (customersFrame tables.silver.customers.rows),
      silverOrderItems.validate (orderItemsFrame tables.silver.orderItems.rows)]
  | .gold => .ofValidations
    [goldDailyRevenue.validate (dailyRevenueFrame tables.gold.dailyRevenue),
      goldCustomerMetrics.validate (customerMetricsFrame tables.gold.customerMetrics)]

end Lakehouse.Quality
