import Lakehouse.Lib.Attempts
import Lakehouse.Lib.Json

/-!
# Smoke check

`infra/kubernetes/components/env-smoke/smoke_check.py`, which runs after every sync of a promoted
environment. A statement goes to Trino with a POST, and its result comes in pages, each of which
links the next. Trino is a machine that answers the two kinds of requests.
-/

namespace Lakehouse.Release.SmokeCheck

open Lib

/-! ## Values of JSON in Python -/

/-- Whether a numeral becomes the number zero. One with a fraction or an exponent becomes a float,
which is zero up to `2 ^ -1075`. -/
def isZero (x : Numeral) : Bool :=
  let digits := Nat.ofDigitChars 10 (x.int ++ x.frac) 0
  let scale := x.exp - x.frac.length
  if 0 ≤ scale then digits = 0 else digits * 2 ^ 1075 ≤ 10 ^ (-scale).toNat

/-- The sign of the number that `json.load` makes of a literal. -/
def sign (n : JsonNumber) : Int :=
  match readNumeral n.val with
  | none => 0
  | some x => if isZero x then 0 else if x.neg then -1 else 1

/-- A value as the condition of an `if`. -/
def truthy : Json → Bool
  | .null => false
  | .bool b => b
  | .num n => sign n ≠ 0
  | .str s => s ≠ ""
  | .arr xs => !xs.isEmpty
  | .obj fields => !fields.isEmpty

/-- The exceptions of the script. -/
inductive Exc where
  | runtimeError (message : Json)
  | attributeError
  | indexError
  | typeError
  | httpError (code : Nat)
  /-- Any other exception of a request: no connection, a timeout, a response that is not JSON. -/
  | requestFailed (reason : String)

/-! ## Trino -/

/-- A row of a result: the array of its cells. -/
abbrev Row := List Json

/-- The members of a response that the script reads, as `get` gives them: `null` and `none` for
those that are absent. -/
structure Page where
  error : Json
  data : Option (List Row)
  nextUri : Option String

/-- How a request ends. -/
inductive Answer where
  | page (payload : Page)
  | httpError (code : Nat)
  | requestFailed (reason : String)

/-- The answer to a POST of a statement, and to a GET of a link. -/
structure Trino (σ : Type) where
  post : String → σ → Answer × σ
  get : String → σ → Answer × σ

/-- The rows of `payload.get("data") or []`. -/
def Page.rows (payload : Page) : List Row := payload.data.getD []

/-- The link, unless it is empty. -/
def Page.next (payload : Page) : Option String := payload.nextUri.filter (· ≠ "")

/-- What a page with an error raises; of two members with one name the last counts. -/
def Page.exc (payload : Page) : Exc :=
  match payload.error with
  | .obj fields =>
    .runtimeError ((fields.reverse.lookup "message").getD (.str "unknown Trino error"))
  | _ => .attributeError

section Script

variable {σ : Type} (trino : Trino σ)

/-! ## `run_query` -/

/-- The body of the loop over the attempts: it leaves with a page or an exception. -/
def openUrl (nextUri : String) (attempt : Nat) (s : σ) : Option (Option (Except Exc Page) × σ) :=
  match trino.get nextUri s with
  | (.page payload, s) => some (some (.ok payload), s)
  | (.httpError code, s) =>
    if code ≠ 503 ∨ attempt = 9 then some (some (.error (.httpError code)), s) else some (none, s)
  | (.requestFailed reason, s) => some (some (.error (.requestFailed reason)), s)

/-- The loop over the pages, for at most as many pages as there is fuel. -/
def readPages : Nat → Page → List Row → σ → Option (Except Exc (List Row) × σ)
  | 0, _, _, _ => none
  | fuel + 1, payload, rows, s =>
    if truthy payload.error then some (.error payload.exc, s)
    else
      let rows := rows ++ payload.rows
      match payload.next with
      | none => some (.ok rows, s)
      | some nextUri =>
        match attempts (openUrl trino nextUri) (List.range 10) s with
        | none => none
        | some (some (.error exc), s) => some (.error exc, s)
        | some (some (.ok payload), s) => readPages fuel payload rows s
        -- no attempt has left the loop: `payload` is still the page before
        | some (none, s) => readPages fuel payload rows s

/-- `run_query`; nothing when the fuel does not reach to the last page. -/
def runQuery (fuel : Nat) (sql : String) (s : σ) : Option (Except Exc (List Row) × σ) :=
  match trino.post sql s with
  | (.page payload, s) => readPages trino fuel payload [] s
  | (.httpError code, s) => some (.error (.httpError code), s)
  | (.requestFailed reason, s) => some (.error (.requestFailed reason), s)

/-! ## `wait_for_trino` -/

/-- The body of the loop of `wait_for_trino`, which ends it with a result. -/
def probe (fuel : Nat) (attempt : Nat) (s : σ) : Option (Option Bool × σ) :=
  match runQuery trino fuel "SELECT 1" s with
  | none => none
  | some (.ok _, s) => some (some true, s)
  | some (.error _, s) => if attempt = 11 then some (some false, s) else some (none, s)

/-- `wait_for_trino`. -/
def waitForTrino (fuel : Nat) (s : σ) : Option (Bool × σ) :=
  (attempts (probe trino fuel) (List.range 12) s).map fun (ready, s) => (ready.getD false, s)

/-! ## `main` -/

/-- An entry of `CHECKS`. -/
structure Check where
  sql : String
  predicate : Json → Except Exc Bool

/-- `value > 0`; a bool is the number 0 or 1. -/
def positive : Json → Except Exc Bool
  | .bool b => .ok b
  | .num n => .ok (0 < sign n)
  | _ => .error .typeError

/-- Each check with its statement and the predicate on the scalar result. -/
def checks : List Check :=
  [ { sql := "SELECT count(*) FROM iceberg.gold.daily_revenue", predicate := positive },
    { sql := "SELECT count(*) FROM iceberg.gold.customer_metrics", predicate := positive } ]

/-- `rows[0][0]` -/
def scalar : List Row → Except Exc Json
  | (value :: _) :: _ => .ok value
  | _ => .error .indexError

/-- The loop over the checks: the number of those that failed. An exception of a predicate is not
caught. -/
def runChecks (fuel : Nat) : List Check → Nat → σ → Option (Except Exc Nat × σ)
  | [], failed, s => some (.ok failed, s)
  | check :: rest, failed, s =>
    match runQuery trino fuel check.sql s with
    | none => none
    | some (rows, s) =>
      match rows.bind scalar with
      | .error _ => runChecks fuel rest (failed + 1) s
      | .ok value =>
        match check.predicate value with
        | .error exc => some (.error exc, s)
        | .ok passed => runChecks fuel rest (if passed then failed else failed + 1) s

/-- The exit code, from the loop over the checks; an exception ends the script with 1. -/
def exitCode : Except Exc Nat → Nat
  | .error _ => 1
  | .ok failed => if failed ≠ 0 then 1 else 0

/-- `main`: the exit code. -/
def main (fuel : Nat) (s : σ) : Option (Nat × σ) :=
  match waitForTrino trino fuel s with
  | none => none
  | some (false, s) => some (1, s)
  | some (true, s) => (runChecks trino fuel checks 0 s).map fun (failed, s) => (exitCode failed, s)

end Script

end Lakehouse.Release.SmokeCheck
