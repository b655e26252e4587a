import Lakehouse.Quality.Suites
import Lakehouse.Verify.CapturedTraffic

/-!
# Traffic by a clock

Traffic whose clock does not go back, with changes that are published no earlier than their
transaction began, and with e-mail addresses made of the digits of a UUID. It is traffic
(`ClockedSegment.segment`), and the rows it leaves are those the suites expect of the source
(`RowsFit`): no row is updated before it was created or after now, every address is one, and the
completed order of the sample data stays.
-/

namespace Lakehouse.Verify

open Lib Source Demo

/-- The first moment that the suites accept. -/
def dataStart : Int := Quality.firstDate * microsPerDay

/-! ## Segments by a clock -/

/-- `uuid.uuid4().hex[:8]`. -/
def IsHex (hex : String) : Prop :=
  hex.length = 8 ∧ ∀ c ∈ hex.toList, Quality.hexDigit.has c = true

/-- The random part of a new e-mail address is hexadecimal. -/
def HexDrawn : Action → Prop
  | .createCustomer draw => IsHex draw.hex
  | .createOrder _ draw _ => IsHex draw.hex
  | _ => True

/-- No event of the commit is published before a time, in milliseconds. -/
structure PublishedFrom (ms : Int) (c : Commit) : Prop where
  customers : ∀ e ∈ c.customers, ms ≤ e.tsMs.toInt
  orders : ∀ e ∈ c.orders, ms ≤ e.tsMs.toInt
  items : ∀ e ∈ c.items, ms ≤ e.tsMs.toInt

/-- Traffic from one time to another. -/
inductive ClockedSegment : Int → Database → List Commit → Int → Database → Prop
  | nil (t : Int) (db : Database) : ClockedSegment t db [] t db
  | commit {t now t' : Int} {db db₁ db' : Database} {a : Action} {log : List RowChange} {c : Commit}
    {commits : List Commit} (hclock : t ≤ now) (hdrawn : HexDrawn a)
    (hexec : a.exec now db = some db₁) (hlog : Transaction db log db₁) (hpublishes : Publishes c log)
    (htimes : PublishedFrom (now / 1000) c) (hrest : ClockedSegment now db₁ commits t' db') :
      ClockedSegment t db (c :: commits) t' db'
  | rollback {t t' : Int} {db db' : Database} {commits : List Commit}
    (customers orders items : Nat)
    (hrest : ClockedSegment t (trafficStep db (.rollback customers orders items)) commits t' db') :
      ClockedSegment t db commits t' db'
  | restart {t now t' : Int} {db db' : Database} {c : Commit} {commits : List Commit}
    (hclock : t ≤ now) (hpublishes : Publishes c (snapshotOf db))
    (htimes : PublishedFrom (now / 1000) c) (hrest : ClockedSegment now db commits t' db') :
      ClockedSegment t db (c :: commits) t' db'

section Segments

variable {t t' : Int} {db db' : Database} {commits : List Commit}

/-- Traffic by a clock is traffic. -/
theorem ClockedSegment.segment (h : ClockedSegment t db commits t' db') :
    Segment db commits db' := by
  induction h with
  | nil => exact .nil _
  | commit _ _ hexec hlog hpublishes _ _ ih => exact .commit hexec hlog hpublishes ih
  | rollback customers orders items _ ih => exact .rollback customers orders items ih
  | restart _ hpublishes _ _ ih => exact .restart hpublishes ih

/-- The clock does not go back. -/
theorem ClockedSegment.clock_le (h : ClockedSegment t db commits t' db') : t ≤ t' := by
  induction h with
  | nil => exact le_rfl
  | commit hclock _ _ _ _ _ _ ih => exact hclock.trans ih
  | rollback _ _ _ _ ih => exact ih
  | restart hclock _ _ _ ih => exact hclock.trans ih

theorem PublishedFrom.mono {ms ms' : Int} {c : Commit} (h : PublishedFrom ms' c) (hle : ms ≤ ms') :
    PublishedFrom ms c :=
  ⟨fun e he => hle.trans (h.customers e he), fun e he => hle.trans (h.orders e he),
    fun e he => hle.trans (h.items e he)⟩

/-- Nothing is published before the traffic begins. -/
theorem ClockedSegment.publishedFrom (h : ClockedSegment t db commits t' db') :
    ∀ c ∈ commits, PublishedFrom (t / 1000) c := by
  have hmono : ∀ {t now : Int}, t ≤ now → t / 1000 ≤ now / 1000 := fun hle =>
    Int.ediv_le_ediv (by decide) hle
  induction h with
  | nil => exact nofun
  | commit hclock _ _ _ _ htimes _ ih =>
    exact List.forall_mem_cons.2 ⟨htimes.mono (hmono hclock),
      fun c hc => (ih c hc).mono (hmono hclock)⟩
  | rollback _ _ _ _ ih => exact ih
  | restart hclock _ htimes _ ih =>
    exact List.forall_mem_cons.2 ⟨htimes.mono (hmono hclock),
      fun c hc => (ih c hc).mono (hmono hclock)⟩

end Segments

/-! ## Rows -/

/-- Created in the time of the suites, and updated between then and now. -/
def DatedBy (t created updated : Int) : Prop := dataStart ≤ created ∧ created ≤ updated ∧ updated ≤ t

theorem DatedBy.mono {t t' created updated : Int} (h : DatedBy t created updated) (hle : t ≤ t') :
    DatedBy t' created updated := ⟨h.1, h.2.1, h.2.2.trans hle⟩

/-- A name and an address as the suite of `silver.customers` expects them. -/
structure CustomerFits (c : CustomerRow) : Prop where
  name : 1 ≤ c.name.length ∧ c.name.length ≤ 200
  email : Quality.emailRegex.accepts c.email.toList = true
  emailLength : 5 ≤ c.email.length ∧ c.email.length ≤ 320

/-- What the suites ask of the rows of the source at a time. -/
structure RowsFit (t : Int) (db : Database) : Prop where
  orders : ∀ o ∈ db.orders, DatedBy t o.createdAt o.updatedAt
  customers : ∀ c ∈ db.customers, DatedBy t c.createdAt c.updatedAt ∧ CustomerFits c
  quantities : ∀ i ∈ db.items, i.quantity.toInt ≤ 5
  completed : ∃ o ∈ db.orders, o.status = "completed"

theorem RowsFit.mono {t t' : Int} {db : Database} (h : RowsFit t db) (hle : t ≤ t') :
    RowsFit t' db where
  orders o ho := (h.orders o ho).mono hle
  customers c hc := ⟨(h.customers c hc).1.mono hle, (h.customers c hc).2⟩
  quantities := h.quantities
  completed := h.completed

/-! ### Addresses -/

/-- A hexadecimal digit may stand in an address. -/
theorem mailChar_of_hexDigit {c : Char} (h : Quality.hexDigit.has c = true) :
    Quality.mailChar.has c = true := by
  simp only [Quality.hexDigit, Quality.mailChar, CharClass.has, CharClass.oneOf, CharClass.noneOf,
    List.any_cons, List.any_nil, Bool.or_false, Bool.bne_false, Bool.bne_true, Bool.or_eq_true,
    Bool.and_eq_true, Bool.not_eq_true', Bool.or_eq_false_iff, Bool.and_eq_false_iff,
    decide_eq_true_eq, decide_eq_false_iff_not, Char.le_def, UInt32.le_iff_toNat_le] at h ⊢
  simp at h ⊢
  omega

theorem name_length : ∀ first ∈ firstNames, ∀ last ∈ lastNames,
    1 ≤ (first ++ " " ++ last).length ∧ (first ++ " " ++ last).length ≤ 200 := by decide

/-- The first names as they begin an address. -/
theorem firstName_fits : ∀ first ∈ firstNames, first.toList ≠ [] ∧ first.toList.length ≤ 20 ∧
    ∀ c ∈ first.toList.map Char.toLower, Quality.mailChar.has c = true := by
  simp [firstNames, Quality.mailChar, CharClass.has, CharClass.noneOf]

theorem example_mail : (∀ c ∈ "example".toList, Quality.mailChar.has c = true) ∧
    ∀ c ∈ "com".toList, Quality.mailChar.has c = true := by
  simp [Quality.mailChar, CharClass.has, CharClass.noneOf]

/-- All addresses are of one host. -/
theorem customerFits_of_user {c : CustomerRow} {user : List Char}
    (hname : 1 ≤ c.name.length ∧ c.name.length ≤ 200) (hne : user ≠ []) (hlen : user.length ≤ 300)
    (huser : ∀ x ∈ user, Quality.mailChar.has x = true)
    (hemail : c.email.toList = user ++ "@example.com".toList) : CustomerFits c := by
  have hhost : "@example.com".toList = '@' :: ("example".toList ++ '.' :: ("com".toList ++ [])) := rfl
  have hlength : c.email.length = user.length + 12 := by
    rw [← String.length_toList, hemail, List.length_append]
    rfl
  refine ⟨hname, ?_, by omega⟩
  rw [hemail, hhost]
  refine Pattern.accepts_oneOrMore hne huser (Pattern.accepts_literal ?_)
  refine Pattern.accepts_oneOrMore (by simp) example_mail.1 (Pattern.accepts_literal ?_)
  exact Pattern.accepts_oneOrMore (by simp) example_mail.2 rfl

/-- The name and the address of a new customer fit the suite. -/
theorem customerFits_of_draw {draw : NewCustomer} (hdraw : IsHex draw.hex) {c : CustomerRow}
    (hname : c.name = firstNames.get draw.firstName ++ " " ++ lastNames.get draw.lastName)
    (hemail : c.email =
      (firstNames.get draw.firstName).toLower ++ "." ++ draw.hex ++ "@example.com") :
    CustomerFits c := by
  obtain ⟨hne, hlen, hmail⟩ := firstName_fits _ (List.get_mem firstNames draw.firstName)
  have hlower : (firstNames.get draw.firstName).toLower.toList =
      (firstNames.get draw.firstName).toList.map Char.toLower := String.toList_map
  have hchars : c.email.toList =
      ((firstNames.get draw.firstName).toList.map Char.toLower ++ '.' :: draw.hex.toList) ++
        "@example.com".toList := by
    rw [hemail, String.toList_append, String.toList_append, String.toList_append, hlower,
      List.append_assoc, List.append_assoc, List.append_assoc, List.append_cancel_left_eq]
    rfl
  have hlocal : ∀ x ∈ (firstNames.get draw.firstName).toList.map Char.toLower ++
      '.' :: draw.hex.toList, Quality.mailChar.has x = true := by
    intro x hx
    rcases List.mem_append.1 hx with hx | hx
    · exact hmail x hx
    · rcases List.mem_cons.1 hx with rfl | hx
      · rfl
      · exact mailChar_of_hexDigit (hdraw.2 x hx)
  refine customerFits_of_user (hname ▸ name_length _ (List.get_mem ..) _ (List.get_mem ..)) ?_ ?_
    hlocal hchars
  · simp
  · have hhex : draw.hex.toList.length = 8 := String.length_toList.trans hdraw.1
    rw [List.length_append, List.length_map, List.length_cons]
    omega

/-! ### Actions -/

section Actions

variable {now : Int} {db db' : Database}

/-- The rows of the two tables that carry times. -/
structure TimesFit (now : Int) (db : Database) : Prop where
  orders : ∀ o ∈ db.orders, DatedBy now o.createdAt o.updatedAt
  customers : ∀ c ∈ db.customers, DatedBy now c.createdAt c.updatedAt ∧ CustomerFits c

/-- A new customer is dated by the clock. -/
theorem createCustomer_times {draw : NewCustomer} (h : createCustomer draw now db = some db')
    (hdraw : IsHex draw.hex) (hnow : dataStart ≤ now) (hfit : TimesFit now db) :
    TimesFit now db' := by
  obtain ⟨-, horders, -⟩ := insertCustomer_spec h
  obtain ⟨customerId, -, h⟩ := Option.bind_eq_some_iff.1 h
  split at h
  · cases h
  · obtain rfl := Option.some.inj h
    refine ⟨hfit.orders, fun c hc => ?_⟩
    rcases List.mem_append.1 hc with hc | hc
    · exact hfit.customers c hc
    · obtain rfl := List.mem_singleton.1 hc
      exact ⟨⟨hnow, le_rfl, le_rfl⟩, customerFits_of_draw hdraw rfl rfl⟩

/-- An update that sets the time to now. -/
theorem TimesFit.updateOrder (hfit : TimesFit now db) (orderId : Int64) {set : OrderRow → OrderRow}
    (hset : ∀ o, (set o).createdAt = o.createdAt ∧ (set o).updatedAt = now) :
    TimesFit now (db.updateOrder orderId set) := by
  refine ⟨fun o' ho' => ?_, hfit.customers⟩
  obtain ⟨o, ho, rfl⟩ := mem_updateOrder.1 ho'
  have hdated := hfit.orders o ho
  split
  · rw [(hset o).1, (hset o).2]
    exact ⟨hdated.1, hdated.2.1.trans hdated.2.2, le_rfl⟩
  · exact hdated

/-- A new order is dated by the clock. -/
theorem insertOrderOf_times {customerId : Int64} {basket : Basket}
    (h : insertOrderOf customerId basket now db = some db') (hnow : dataStart ≤ now)
    (hfit : TimesFit now db) : TimesFit now db' := by
  obtain ⟨⟨db₁, orderId⟩, hinsert, h⟩ := Option.bind_eq_some_iff.1 h
  obtain ⟨⟨db₂, total⟩, hlines, h⟩ := Option.bind_eq_some_iff.1 h
  obtain ⟨totalAmount, -, rfl⟩ := Option.map_eq_some_iff.1 h
  obtain ⟨-, -, -, -, -, -, horders, hcustomers⟩ := insertLines_spec hlines
  have hfirst : TimesFit now db₁ := by
    obtain ⟨id, -, hinsert⟩ := Option.bind_eq_some_iff.1 hinsert
    split at hinsert
    · cases hinsert
    · split at hinsert
      · obtain ⟨rfl, rfl⟩ := Prod.mk.inj (Option.some.inj hinsert)
        refine ⟨fun o ho => ?_, hfit.customers⟩
        rcases List.mem_append.1 ho with ho | ho
        · exact hfit.orders o ho
        · obtain rfl := List.mem_singleton.1 ho
          exact ⟨hnow, le_rfl, le_rfl⟩
      · cases hinsert
  have hlast : TimesFit now db₂ := ⟨horders ▸ hfirst.orders, hcustomers ▸ hfirst.customers⟩
  exact hlast.updateOrder orderId fun o => ⟨rfl, rfl⟩

/-- Every action dates what it writes by the clock. -/
theorem Action.exec_times {a : Action} (h : a.exec now db = some db') (hdrawn : HexDrawn a)
    (hnow : dataStart ≤ now) (hfit : TimesFit now db) : TimesFit now db' := by
  cases a with
  | createCustomer draw => exact createCustomer_times h hdrawn hnow hfit
  | createOrder customer draw basket =>
    change Demo.createOrder customer draw basket now db = some db' at h
    unfold Demo.createOrder at h
    split at h
    · exact insertOrderOf_times h hnow hfit
    · obtain ⟨db₁, hcreate, h⟩ := Option.bind_eq_some_iff.1 h
      obtain ⟨row, -, h⟩ := Option.bind_eq_some_iff.1 h
      exact insertOrderOf_times h hnow (createCustomer_times hcreate hdrawn hnow hfit)
  | progressOrder order draw =>
    change progressOrder order draw now db = some db' at h
    unfold progressOrder at h
    split at h
    · obtain rfl := Option.some.inj h
      exact hfit
    · split at h
      · obtain rfl := Option.some.inj h
        exact hfit
      · obtain rfl := Option.some.inj h
        exact hfit.updateOrder _ fun o => ⟨rfl, rfl⟩
  | updateItemQuantity item quantity =>
    change updateItemQuantity item quantity now db = some db' at h
    unfold updateItemQuantity at h
    split at h
    · obtain rfl := Option.some.inj h
      exact hfit
    · next i o hpick =>
      obtain ⟨total, -, rfl⟩ := Option.map_eq_some_iff.1 h
      have hitem : TimesFit now
          (db.updateItem i.itemId (setQuantity (Int32.ofNat (quantity.val + 1)))) :=
        ⟨hfit.orders, hfit.customers⟩
      exact hitem.updateOrder _ fun o => ⟨rfl, rfl⟩

/-- **Every action keeps the rows as the suites expect them.** -/
theorem Action.exec_rowsFit {a : Action} (h : a.exec now db = some db') (hdrawn : HexDrawn a)
    (hnow : dataStart ≤ now) (hsound : Sound db) (hfit : RowsFit now db) : RowsFit now db' := by
  obtain ⟨horders, hcustomers⟩ := Action.exec_times h hdrawn hnow ⟨hfit.orders, hfit.customers⟩
  refine ⟨horders, hcustomers, ?_, ?_⟩
  · have hquantity : ∀ q : Fin 5, (Int32.ofNat (q.val + 1)).toInt ≤ 5 := by decide
    refine @Action.exec_items (fun q _ => q.toInt ≤ 5) _ _ _ _ h (fun basket line hline => ?_)
      (fun quantity _ _ => hquantity quantity) hfit.quantities
    have hthree : line.2.toInt ≤ 3 := Int32.le_iff_toInt_le.1 (basket.quantities line hline).2
    omega
  · obtain ⟨o, ho, hcompleted⟩ := hfit.completed
    obtain ⟨o', ho', -, -, -, -, hsame⟩ := (Action.exec_cases h).frozen hsound o ho (by
      rw [hcompleted]
      decide)
    obtain rfl := hsame (by
      rw [hcompleted]
      decide)
    exact ⟨o', ho', hcompleted⟩

end Actions

/-! ### Segments -/

/-- The rows fit after any traffic by the clock. -/
theorem ClockedSegment.rowsFit {t t' : Int} {db db' : Database} {commits : List Commit}
    (h : ClockedSegment t db commits t' db') (hstart : dataStart ≤ t) (hsound : Sound db)
    (hfit : RowsFit t db) : RowsFit t' db' := by
  induction h with
  | nil => exact hfit
  | commit hclock hdrawn hexec _ _ _ _ ih =>
    exact ih (hstart.trans hclock) ((Action.exec_cases hexec).sound hsound)
      (Action.exec_rowsFit hexec hdrawn (hstart.trans hclock) hsound (hfit.mono hclock))
  | rollback customers orders items _ ih =>
    exact ih hstart ((trafficStep_change _ (.rollback customers orders items)).sound hsound)
      ⟨hfit.orders, hfit.customers, hfit.quantities, hfit.completed⟩
  | restart hclock _ _ _ ih => exact ih (hstart.trans hclock) hsound (hfit.mono hclock)

/-- The sample data fits. -/
theorem rowsFit_sampleData {t : Int} (hstart : dataStart ≤ t) : RowsFit t (sampleData t) where
  orders := by
    intro o ho
    simp only [sampleData, List.mem_cons, List.not_mem_nil, or_false] at ho
    rcases ho with rfl | rfl <;> exact ⟨hstart, le_rfl, le_rfl⟩
  customers := by
    intro c hc
    simp only [sampleData, List.mem_cons, List.not_mem_nil, or_false] at hc
    have hmail : ∀ user ∈ ["alice", "bob"], ∀ c ∈ user.toList, Quality.mailChar.has c = true := by
      simp [Quality.mailChar, CharClass.has, CharClass.noneOf]
    have hname : ∀ name ∈ ["Alice Martin", "Bob Dupont"],
        1 ≤ name.length ∧ name.length ≤ 200 := by decide
    rcases hc with rfl | rfl
    · exact ⟨⟨hstart, le_rfl, le_rfl⟩, customerFits_of_user (hname _ (.head _)) (by simp) (by simp)
        (hmail "alice" (.head _)) (by simp)⟩
    · exact ⟨⟨hstart, le_rfl, le_rfl⟩, customerFits_of_user (hname _ (.tail _ (.head _))) (by simp)
        (by simp) (hmail "bob" (.tail _ (.head _))) (by simp)⟩
  quantities := by
    intro i hi
    simp only [sampleData, List.mem_cons, List.not_mem_nil, or_false] at hi
    rcases hi with rfl | rfl | rfl <;> decide
  completed := ⟨_, .head _, rfl⟩

end Lakehouse.Verify
