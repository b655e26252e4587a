import Mathlib.Data.List.Basic

/-!
# Exchange-rates loader

`pipelines/ingestion/exchange_rates_loader.py`: the payload of the API becomes one event for each
quoted currency, and each event a record of `raw.events`. A rate is a value of any type with a
rounding. The producer is the one of kafka-python: `send` hands a record over, the broker
acknowledges it or fails it later, `flush` waits until every record has an outcome and raises only
when that takes too long.
-/

namespace Lakehouse.Ingestion

/-! ## Events -/

section Events

variable {ρ : Type}

/-- A response of the API. -/
structure Payload (ρ : Type) where
  base : String
  date : String
  rates : List (String × ρ)

/-- A row of the events frame. -/
structure RateEvent (ρ : Type) where
  eventType : String
  base : String
  currency : String
  rate : ρ
  rateDate : String
  fetchedAt : String
deriving DecidableEq

/-- `rates_to_events`: an empty tuple of currencies keeps all. -/
def ratesToEvents (round6 : ρ → ρ) (now : String) (payload : Payload ρ)
    (currencies : List String) : List (RateEvent ρ) :=
  let rates :=
    if currencies.isEmpty then payload.rates
    else payload.rates.filter fun r => currencies.contains r.1
  let events := rates.map fun (currency, rate) =>
    { eventType := "exchange_rate"
      base := payload.base
      currency := currency
      rate := round6 rate
      rateDate := payload.date
      fetchedAt := now }
  events.mergeSort fun e e' => decide (e.currency ≤ e'.currency)

end Events

/-! ## Producer -/

/-- A record as it is handed to the producer. -/
structure Record where
  key : String
  value : String
deriving DecidableEq

/-- What becomes of a record after it was sent. -/
inductive Outcome where
  | acknowledged
  | failed
deriving DecidableEq

/-- The calls to the producer, each of which may raise, and the outcome of the records in the order
in which they are sent. -/
structure Kafka where
  connect : Except String Unit
  send : Nat → Except String Unit
  flush : Except String Unit
  close : Except String Unit
  outcome : Nat → Outcome

/-- What a call of `produce_events` adds to the topic, and its result. -/
structure Production where
  log : List Record
  result : Except String Nat

/-- The loop over the rows, from the `i`-th on: the records it sends, and the exception that ends
it. -/
def sendAll (kafka : Kafka) (i : Nat) : List Record → List Record × Except String Unit
  | [] => ([], .ok ())
  | record :: records =>
    match kafka.send i with
    | .error exc => ([], .error exc)
    | .ok () =>
      let (sent, result) := sendAll kafka (i + 1) records
      (record :: sent, result)

/-- The records among those sent from the `i`-th on that the broker acknowledges. -/
def acknowledged (kafka : Kafka) (i : Nat) : List Record → List Record
  | [] => []
  | record :: records =>
    match kafka.outcome i with
    | .acknowledged => record :: acknowledged kafka (i + 1) records
    | .failed => acknowledged kafka (i + 1) records

section Produce

variable {ρ : Type} (jsonDumps : RateEvent ρ → String)

/-- The record of an event, keyed by its currency. -/
def record (row : RateEvent ρ) : Record where
  key := row.currency
  value := jsonDumps row

/-- `produce_events`; an exception of `close` replaces one before it. -/
def produceEvents (kafka : Kafka) (events : List (RateEvent ρ)) : Production :=
  match kafka.connect with
  | .error exc => { log := [], result := .error exc }
  | .ok () =>
    let (sent, loop) := sendAll kafka 0 (events.map (record jsonDumps))
    let body := loop.bind fun _ => kafka.flush
    { log := acknowledged kafka 0 sent
      result := (kafka.close.bind fun _ => body).map fun _ => events.length }

/-! ## The script -/

/-- The command line. -/
structure Args where
  base : String
  currencies : List String
  dryRun : Bool

/-- What a run leaves: its exit code, the number of events it reports as produced, and the records
it added to the topic. -/
structure LoaderRun where
  exitCode : Nat
  reported : Option Nat
  log : List Record

/-- `main`; an exception ends the script with exit code 1. -/
def main (fetchRates : String → Except String (Payload ρ)) (round6 : ρ → ρ) (now : String)
    (kafka : Kafka) (args : Args) : LoaderRun :=
  match fetchRates args.base with
  | .error _ => { exitCode := 1, reported := none, log := [] }
  | .ok payload =>
    let events := ratesToEvents round6 now payload args.currencies
    if events.isEmpty then { exitCode := 1, reported := none, log := [] }
    else if args.dryRun then { exitCode := 0, reported := none, log := [] }
    else
      let production := produceEvents jsonDumps kafka events
      match production.result with
      | .error _ => { exitCode := 1, reported := none, log := production.log }
      | .ok count => { exitCode := 0, reported := some count, log := production.log }

end Produce

end Lakehouse.Ingestion
