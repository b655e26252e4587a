import Lakehouse.Lib.Digits

/-!
# JSON texts and path extraction

JSON values, their compact rendering, a parser, and the extraction of one value by a path of field
names out of a text (`getJsonObject`). A number is kept as the literal it was written as. The
parser inverts the rendering (`parseJson_render`), so extracting from a rendered value is looking
the path up in the value (`getJsonObject_render`).
-/

namespace Lakehouse.Lib

/-! ## Values -/

/-- The characters a number is made of. -/
def isNumChar (c : Char) : Bool :=
  c.isDigit || c == '-' || c == '+' || c == '.' || c == 'e' || c == 'E'

/-- The grammar of JSON numbers: no leading plus, no leading zero, digits around the point. -/
def isNumber (l : List Char) : Bool :=
  let l' := match l with
    | '-' :: r => r
    | r => r
  let (int, r) := l'.span Char.isDigit
  let (frac, r) := takeFrac r
  l.all isNumChar && !int.isEmpty && (int.length == 1 || int.head? != some '0') &&
    (!(l.contains '.') || !frac.isEmpty) && (readExp r).isSome

/-- A JSON number, as the literal it was written as. -/
def JsonNumber := {l : List Char // isNumber l = true}
deriving DecidableEq

/-- A JSON value; the fields of an object stand in their order. -/
inductive Json where
  | null
  | bool (b : Bool)
  | num (n : JsonNumber)
  | str (s : String)
  | arr (xs : List Json)
  | obj (fields : List (String × Json))

/-! ## Rendering -/

/-- The hexadecimal digit of a number below 16. -/
def hexDigit (n : Nat) : Char := Nat.digitChar n

/-- A character inside a string, escaped where it has to be. -/
def escChar (c : Char) : List Char :=
  if c = '"' then ['\\', '"']
  else if c = '\\' then ['\\', '\\']
  else if c = '\n' then ['\\', 'n']
  else if c = '\r' then ['\\', 'r']
  else if c = '\t' then ['\\', 't']
  else if c.toNat < 32 then
    ['\\', 'u', '0', '0', hexDigit (c.toNat / 16), hexDigit (c.toNat % 16)]
  else [c]

/-- A string in its quotes. -/
def renderStr (s : String) : List Char := '"' :: (s.toList.flatMap escChar ++ ['"'])

mutual

/-- The text of a value. -/
def Json.render : Json → List Char
  | .null => ['n', 'u', 'l', 'l']
  | .bool true => ['t', 'r', 'u', 'e']
  | .bool false => ['f', 'a', 'l', 's', 'e']
  | .num n => n.val
  | .str s => renderStr s
  | .arr [] => ['[', ']']
  | .arr (x :: xs) => '[' :: (x.render ++ renderElems xs)
  | .obj [] => ['{', '}']
  | .obj ((k, v) :: fs) => '{' :: (renderStr k ++ ':' :: (v.render ++ renderFields fs))

/-- The elements after the first one, and the closing bracket. -/
def renderElems : List Json → List Char
  | [] => [']']
  | x :: xs => ',' :: (x.render ++ renderElems xs)

/-- The fields after the first one, and the closing brace. -/
def renderFields : List (String × Json) → List Char
  | [] => ['}']
  | (k, v) :: fs => ',' :: (renderStr k ++ ':' :: (v.render ++ renderFields fs))

end

/-! ## Parsing -/

/-- The text after its white space. -/
def skipWs (l : List Char) : List Char :=
  l.dropWhile fun c => c == ' ' || c == '\n' || c == '\r' || c == '\t'

/-- The number of a hexadecimal digit. -/
def hexVal (c : Char) : Option Nat :=
  if c.isDigit then some (c.toNat - '0'.toNat)
  else if 'a' ≤ c ∧ c ≤ 'f' then some (c.toNat - 'a'.toNat + 10)
  else if 'A' ≤ c ∧ c ≤ 'F' then some (c.toNat - 'A'.toNat + 10)
  else none

/-- The code unit of four hexadecimal digits. -/
def hex4 (a b c d : Char) : Option Nat := do
  return 4096 * (← hexVal a) + 256 * (← hexVal b) + 16 * (← hexVal c) + (← hexVal d)

/-- A one-character escape. -/
def unescape (c : Char) : Option Nat :=
  if c = '"' ∨ c = '\\' ∨ c = '/' then some c.toNat
  else if c = 'n' then some 10
  else if c = 'r' then some 13
  else if c = 't' then some 9
  else if c = 'b' then some 8
  else if c = 'f' then some 12
  else none

/-- A code unit in front of the rest of a string literal. -/
def consUnit (n : Nat) : Option (List Nat × List Char) → Option (List Nat × List Char) :=
  Option.map fun p => (n :: p.1, p.2)

/-- The body of a string literal up to the closing quote, as code units. -/
def parseUnits : List Char → Option (List Nat × List Char)
  | [] => none
  | '"' :: l => some ([], l)
  | '\\' :: 'u' :: a :: b :: c :: d :: l => (hex4 a b c d).bind fun n => consUnit n (parseUnits l)
  | '\\' :: c :: l => (unescape c).bind fun n => consUnit n (parseUnits l)
  | c :: l => if c.toNat < 32 ∨ c = '\\' then none else consUnit c.toNat (parseUnits l)

/-- Code units as characters: an escaped surrogate pair is one character, a lone surrogate none. -/
def decodeUnits : List Nat → Option (List Char)
  | [] => some []
  | hi :: lo :: us =>
    if 0xD800 ≤ hi ∧ hi ≤ 0xDBFF then
      if 0xDC00 ≤ lo ∧ lo ≤ 0xDFFF then
        (decodeUnits us).map (Char.ofNat (0x10000 + (hi - 0xD800) * 0x400 + (lo - 0xDC00)) :: ·)
      else none
    else if hi.isValidChar then (decodeUnits (lo :: us)).map (Char.ofNat hi :: ·)
    else none
  | [u] => if u.isValidChar then some [Char.ofNat u] else none

/-- A string literal after its opening quote. -/
def parseStr (l : List Char) : Option (String × List Char) := do
  let (us, l) ← parseUnits l
  let cs ← decodeUnits us
  return (String.ofList cs, l)

/-- A number and what follows it. -/
def parseNum (l : List Char) : Option (Json × List Char) :=
  let (lit, rest) := l.span isNumChar
  if h : isNumber lit = true then some (.num ⟨lit, h⟩, rest) else none

/-- The field name and the colon in front of a field's value. -/
def parseName (l : List Char) : Option (String × List Char) :=
  match skipWs l with
  | '"' :: l =>
    (parseStr l).bind fun (k, l) =>
      match skipWs l with
      | ':' :: l => some (k, l)
      | _ => none
  | _ => none

mutual

/-- A value and what follows it; the first argument bounds the length of the text read. -/
def parseValue : Nat → List Char → Option (Json × List Char)
  | 0, _ => none
  | n + 1, l =>
    match skipWs l with
    | [] => none
    | c :: l =>
      if c = '"' then (parseStr l).map fun (s, l) => (.str s, l)
      else if c = '[' then
        match skipWs l with
        | ']' :: l => some (.arr [], l)
        | _ =>
          (parseValue n l).bind fun (x, l) => (parseElems n l).map fun (xs, l) => (.arr (x :: xs), l)
      else if c = '{' then
        match skipWs l with
        | '}' :: l => some (.obj [], l)
        | _ =>
          (parseName l).bind fun (k, l) => (parseValue n l).bind fun (v, l) =>
            (parseFields n l).map fun (fs, l) => (.obj ((k, v) :: fs), l)
      else if c = 'n' then (l.dropPrefix? ['u', 'l', 'l']).map fun l => (.null, l)
      else if c = 't' then (l.dropPrefix? ['r', 'u', 'e']).map fun l => (.bool true, l)
      else if c = 'f' then (l.dropPrefix? ['a', 'l', 's', 'e']).map fun l => (.bool false, l)
      else parseNum (c :: l)

/-- The rest of an array. -/
def parseElems : Nat → List Char → Option (List Json × List Char)
  | 0, _ => none
  | n + 1, l =>
    match skipWs l with
    | ']' :: l => some ([], l)
    | ',' :: l =>
      (parseValue n l).bind fun (x, l) => (parseElems n l).map fun (xs, l) => (x :: xs, l)
    | _ => none

/-- The rest of an object. -/
def parseFields : Nat → List Char → Option (List (String × Json) × List Char)
  | 0, _ => none
  | n + 1, l =>
    match skipWs l with
    | '}' :: l => some ([], l)
    | ',' :: l =>
      (parseName l).bind fun (k, l) => (parseValue n l).bind fun (v, l) =>
        (parseFields n l).map fun (fs, l) => ((k, v) :: fs, l)
    | _ => none

end

/-- A whole text as one value. -/
def parseJson (l : List Char) : Option Json :=
  match parseValue (l.length + 1) l with
  | some (j, rest) => if skipWs rest = [] then some j else none
  | none => none

/-! ## The parser inverts the rendering -/

/-- A text that does not go on with a number character. -/
def Stops (l : List Char) : Prop := ∀ c ∈ l.head?, isNumChar c = false

theorem stops_nil : Stops [] := by intro c hc; cases hc

theorem stops_cons {c : Char} {l : List Char} (h : isNumChar c = false) : Stops (c :: l) := by
  intro d hd
  cases hd
  exact h

theorem skipWs_cons {c : Char} (h : (c == ' ' || c == '\n' || c == '\r' || c == '\t') = false)
    (l : List Char) : skipWs (c :: l) = c :: l := by
  unfold skipWs
  rw [List.dropWhile_cons_of_neg (by rw [h]; decide)]

theorem hexVal_hexDigit : ∀ n < 16, hexVal (hexDigit n) = some n := by decide

theorem parseUnits_escChar (c : Char) (l : List Char) :
    parseUnits (escChar c ++ l) = consUnit c.toNat (parseUnits l) := by
  unfold escChar
  split
  · next h => subst h; simp [parseUnits, unescape]
  split
  · next h => subst h; simp [parseUnits, unescape]
  split
  · next h => subst h; simp [parseUnits, unescape]
  split
  · next h => subst h; simp [parseUnits, unescape]
  split
  · next h => subst h; simp [parseUnits, unescape]
  split
  · next h =>
    have hhi := hexVal_hexDigit (c.toNat / 16) (by omega)
    have hlo := hexVal_hexDigit (c.toNat % 16) (by omega)
    have hz : hexVal '0' = some 0 := by decide
    have hsum : 16 * (c.toNat / 16) + c.toNat % 16 = c.toNat := by omega
    simp [parseUnits, hex4, hz, hhi, hlo, hsum]
  · next hq hb _ _ _ hctl =>
    rw [List.cons_append, List.nil_append, parseUnits.eq_def]
    split <;> simp_all

theorem parseUnits_body (cs : List Char) (l : List Char) :
    parseUnits (cs.flatMap escChar ++ '"' :: l) = some (cs.map Char.toNat, l) := by
  induction cs with
  | nil => simp [parseUnits]
  | cons c cs ih =>
    rw [List.flatMap_cons, List.append_assoc, parseUnits_escChar, ih]
    rfl

theorem decodeUnits_toNat : ∀ cs : List Char, decodeUnits (cs.map Char.toNat) = some cs
  | [] => rfl
  | [c] => by
    have hv : c.toNat.isValidChar := c.valid
    simp [decodeUnits, hv, Char.ofNat_toNat]
  | c :: d :: cs => by
    have hv : c.toNat.isValidChar := c.valid
    have hs : ¬ (0xD800 ≤ c.toNat ∧ c.toNat ≤ 0xDBFF) := by
      rcases hv with h | ⟨h, -⟩ <;> omega
    have ih := decodeUnits_toNat (d :: cs)
    simp only [List.map_cons] at ih ⊢
    rw [decodeUnits, if_neg hs, if_pos hv, ih, Option.map_some, Char.ofNat_toNat]

theorem parseStr_render (s : String) (l : List Char) :
    parseStr (s.toList.flatMap escChar ++ '"' :: l) = some (s, l) := by
  unfold parseStr
  simp [parseUnits_body, decodeUnits_toNat]

theorem parseName_render (k : String) (l : List Char) :
    parseName (renderStr k ++ ':' :: l) = some (k, l) := by
  unfold parseName renderStr
  rw [List.cons_append, skipWs_cons (by decide), List.append_assoc]
  simp only [List.cons_append, List.nil_append, parseStr_render, Option.bind_some]
  rw [skipWs_cons (by decide)]
  rfl

theorem JsonNumber.run (n : JsonNumber) : n.val ≠ [] ∧ ∀ c ∈ n.val, isNumChar c = true := by
  obtain ⟨l, h⟩ := n
  unfold isNumber at h
  simp only [Bool.and_eq_true] at h
  refine ⟨?_, fun c hc => List.all_eq_true.1 h.1.1.1.1 c hc⟩
  rintro rfl
  exact absurd h.1.1.1.2 (by decide)

theorem parseNum_render (n : JsonNumber) {rest : List Char} (hrest : Stops rest) :
    parseNum (n.val ++ rest) = some (.num n, rest) := by
  unfold parseNum
  rw [span_run n.run.2 hrest]
  exact dif_pos n.property

theorem render_head (j : Json) : ∃ c l, j.render = c :: l ∧
    (c == ' ' || c == '\n' || c == '\r' || c == '\t') = false ∧ c ≠ ']' ∧ c ≠ '}' := by
  cases j with
  | null => exact ⟨_, _, rfl, by decide⟩
  | bool b => cases b <;> exact ⟨_, _, rfl, by decide⟩
  | num n =>
    obtain ⟨hne, hall⟩ := n.run
    obtain ⟨c, l, hcl⟩ := List.exists_cons_of_ne_nil hne
    have hc : isNumChar c = true := hall c (by rw [hcl]; exact List.mem_cons_self)
    have hother : ∀ d, isNumChar d = false → c ≠ d := by
      rintro d hd rfl
      rw [hc] at hd
      cases hd
    refine ⟨c, l, by rw [Json.render]; exact hcl, ?_, hother _ (by decide), hother _ (by decide)⟩
    simp [hother ' ' (by decide), hother '\n' (by decide), hother '\r' (by decide),
      hother '\t' (by decide)]
  | str s => exact ⟨_, _, by rw [Json.render]; rfl, by decide⟩
  | arr xs => cases xs <;> exact ⟨_, _, by rw [Json.render], by decide⟩
  | obj fs => cases fs <;> exact ⟨_, _, by rw [Json.render], by decide⟩

theorem stops_renderElems (xs : List Json) (rest : List Char) :
    Stops (renderElems xs ++ rest) := by
  cases xs <;> rw [renderElems] <;> exact stops_cons (by decide)

theorem stops_renderFields (fs : List (String × Json)) (rest : List Char) :
    Stops (renderFields fs ++ rest) := by
  cases fs with
  | nil => rw [renderFields]; exact stops_cons (by decide)
  | cons kv fs =>
    obtain ⟨k, v⟩ := kv
    rw [renderFields]
    exact stops_cons (by decide)

theorem dropPrefix?_append (p l : List Char) : (p ++ l).dropPrefix? p = some l := by
  induction p with
  | nil => cases l <;> rfl
  | cons c p ih => simpa [List.dropPrefix?] using ih

theorem parseValue_num (n : Nat) {c : Char} (hc : isNumChar c = true) (l : List Char) :
    parseValue (n + 1) (c :: l) = parseNum (c :: l) := by
  have hother : ∀ d, isNumChar d = false → c ≠ d := by
    rintro d hd rfl
    rw [hc] at hd
    cases hd
  have hws : (c == ' ' || c == '\n' || c == '\r' || c == '\t') = false := by
    simp [hother ' ' (by decide), hother '\n' (by decide), hother '\r' (by decide),
      hother '\t' (by decide)]
  rw [parseValue, skipWs_cons hws]
  simp only [hother '"' (by decide), hother '[' (by decide), hother '{' (by decide),
    hother 'n' (by decide), hother 't' (by decide), hother 'f' (by decide), if_false]

mutual

/-- **The parser inverts the rendering** of a value, whatever non-number text follows it. -/
theorem parseValue_render : ∀ (j : Json) (n : Nat) (rest : List Char), j.render.length ≤ n →
    Stops rest → parseValue n (j.render ++ rest) = some (j, rest)
  | .null, n, rest, hn, _ => by
    obtain ⟨n, rfl⟩ : ∃ m, n = m + 1 := ⟨n - 1, by simp [Json.render] at hn; omega⟩
    rw [Json.render, List.cons_append, parseValue, skipWs_cons (by decide)]
    simp only [Char.reduceEq, if_false, if_true, dropPrefix?_append, Option.map_some]
  | .bool true, n, rest, hn, _ => by
    obtain ⟨n, rfl⟩ : ∃ m, n = m + 1 := ⟨n - 1, by simp [Json.render] at hn; omega⟩
    rw [Json.render, List.cons_append, parseValue, skipWs_cons (by decide)]
    simp only [Char.reduceEq, if_false, if_true, dropPrefix?_append, Option.map_some]
  | .bool false, n, rest, hn, _ => by
    obtain ⟨n, rfl⟩ : ∃ m, n = m + 1 := ⟨n - 1, by simp [Json.render] at hn; omega⟩
    rw [Json.render, List.cons_append, parseValue, skipWs_cons (by decide)]
    simp only [Char.reduceEq, if_false, if_true, dropPrefix?_append, Option.map_some]
  | .num lit, n, rest, hn, hrest => by
    obtain ⟨hne, hall⟩ := lit.run
    obtain ⟨c, l, hcl⟩ := List.exists_cons_of_ne_nil hne
    obtain ⟨n, rfl⟩ : ∃ m, n = m + 1 := ⟨n - 1, by simp [Json.render, hcl] at hn; omega⟩
    have hnum := parseNum_render lit hrest
    rw [Json.render]
    rw [hcl, List.cons_append] at hnum ⊢
    rw [parseValue_num n (hall c (by rw [hcl]; exact List.mem_cons_self)), hnum]
  | .str s, n, rest, hn, _ => by
    obtain ⟨n, rfl⟩ : ∃ m, n = m + 1 := ⟨n - 1, by simp [Json.render, renderStr] at hn; omega⟩
    rw [Json.render, renderStr, List.cons_append, parseValue, skipWs_cons (by decide),
      List.append_assoc]
    simp only [if_true, List.cons_append, List.nil_append, parseStr_render, Option.map_some]
  | .arr [], n, rest, hn, _ => by
    obtain ⟨n, rfl⟩ : ∃ m, n = m + 1 := ⟨n - 1, by simp [Json.render] at hn; omega⟩
    rw [Json.render, List.cons_append, parseValue, skipWs_cons (by decide)]
    simp only [Char.reduceEq, if_false, if_true, List.cons_append, List.nil_append]
    rw [skipWs_cons (by decide)]
    rfl
  | .arr (x :: xs), n, rest, hn, _ => by
    rw [Json.render, List.length_cons, List.length_append] at hn
    obtain ⟨n, rfl⟩ : ∃ m, n = m + 1 := ⟨n - 1, by omega⟩
    have hx := parseValue_render x n (renderElems xs ++ rest) (by omega) (stops_renderElems xs rest)
    have hxs := parseElems_render xs n rest (by omega)
    obtain ⟨c, l, hcl, hws, hbr, -⟩ := render_head x
    rw [Json.render, List.cons_append, parseValue, skipWs_cons (by decide), List.append_assoc]
    simp only [Char.reduceEq, if_false, if_true]
    rw [hcl] at hx ⊢
    rw [List.cons_append] at hx ⊢
    rw [skipWs_cons hws]
    split
    · next h => exact absurd (List.cons.inj h).1 hbr
    · simp only [hx, hxs, Option.bind_some, Option.map_some]
  | .obj [], n, rest, hn, _ => by
    obtain ⟨n, rfl⟩ : ∃ m, n = m + 1 := ⟨n - 1, by simp [Json.render] at hn; omega⟩
    rw [Json.render, List.cons_append, parseValue, skipWs_cons (by decide)]
    simp only [Char.reduceEq, if_false, if_true, List.cons_append, List.nil_append]
    rw [skipWs_cons (by decide)]
    rfl
  | .obj ((k, v) :: fs), n, rest, hn, _ => by
    rw [Json.render] at hn
    simp only [List.length_cons, List.length_append] at hn
    obtain ⟨n, rfl⟩ : ∃ m, n = m + 1 := ⟨n - 1, by omega⟩
    have hv := parseValue_render v n (renderFields fs ++ rest) (by omega)
      (stops_renderFields fs rest)
    have hfs := parseFields_render fs n rest (by omega)
    have hk := parseName_render k (v.render ++ (renderFields fs ++ rest))
    rw [Json.render, List.cons_append, parseValue, skipWs_cons (by decide)]
    simp only [List.append_assoc, List.cons_append]
    simp only [Char.reduceEq, if_false, if_true]
    have hquote : ∃ l, renderStr k ++ ':' :: (v.render ++ (renderFields fs ++ rest)) = '"' :: l :=
      ⟨_, rfl⟩
    obtain ⟨l, hl⟩ := hquote
    rw [hl] at hk ⊢
    rw [skipWs_cons (by decide)]
    simp only [hk, hv, hfs, Option.bind_some, Option.map_some]
    rfl

theorem parseElems_render : ∀ (xs : List Json) (n : Nat) (rest : List Char),
    (renderElems xs).length ≤ n → parseElems n (renderElems xs ++ rest) = some (xs, rest)
  | [], n, rest, hn => by
    obtain ⟨n, rfl⟩ : ∃ m, n = m + 1 := ⟨n - 1, by simp [renderElems] at hn; omega⟩
    rw [renderElems, List.cons_append, parseElems, skipWs_cons (by decide)]
    rfl
  | x :: xs, n, rest, hn => by
    rw [renderElems, List.length_cons, List.length_append] at hn
    obtain ⟨n, rfl⟩ : ∃ m, n = m + 1 := ⟨n - 1, by omega⟩
    have hx := parseValue_render x n (renderElems xs ++ rest) (by omega) (stops_renderElems xs rest)
    have hxs := parseElems_render xs n rest (by omega)
    rw [renderElems, List.cons_append, parseElems, skipWs_cons (by decide), List.append_assoc]
    simp only [hx, hxs, Option.bind_some, Option.map_some]

theorem parseFields_render : ∀ (fs : List (String × Json)) (n : Nat) (rest : List Char),
    (renderFields fs).length ≤ n → parseFields n (renderFields fs ++ rest) = some (fs, rest)
  | [], n, rest, hn => by
    obtain ⟨n, rfl⟩ : ∃ m, n = m + 1 := ⟨n - 1, by simp [renderFields] at hn; omega⟩
    rw [renderFields, List.cons_append, parseFields, skipWs_cons (by decide)]
    rfl
  | (k, v) :: fs, n, rest, hn => by
    rw [renderFields] at hn
    simp only [List.length_cons, List.length_append] at hn
    obtain ⟨n, rfl⟩ : ∃ m, n = m + 1 := ⟨n - 1, by omega⟩
    have hv := parseValue_render v n (renderFields fs ++ rest) (by omega)
      (stops_renderFields fs rest)
    have hfs := parseFields_render fs n rest (by omega)
    have hk := parseName_render k (v.render ++ (renderFields fs ++ rest))
    rw [renderFields, List.cons_append, parseFields, skipWs_cons (by decide)]
    simp only [List.append_assoc, List.cons_append, hk, hv, hfs, Option.bind_some, Option.map_some]

end

/-- **Round trip**: a rendered value parses back to itself. -/
theorem parseJson_render (j : Json) : parseJson j.render = some j := by
  have h := parseValue_render j (j.render.length + 1) [] (by omega) stops_nil
  rw [List.append_nil] at h
  unfold parseJson
  simp [h, skipWs]

/-! ## Path extraction -/

/-- The text of a value: nothing for `null`, the bare characters of a string, the rendering of
anything else. -/
def Json.text : Json → Option String
  | .null => none
  | .str s => some s
  | j => some (String.ofList j.render)

/-- The text at a path of field names; of two fields with one name the first that gives a text. -/
def Json.lookup : List String → Json → Option String
  | [], j => j.text
  | name :: path, .obj fs => fs.findSome? fun (k, v) => if k = name then v.lookup path else none
  | _ :: _, _ => none

@[simp] theorem Json.lookup_nil (j : Json) : j.lookup [] = j.text := by cases j <;> rfl

@[simp] theorem Json.lookup_obj_nil (name : String) (path : List String) :
    (Json.obj []).lookup (name :: path) = none := rfl

@[simp] theorem Json.lookup_obj_cons (name k : String) (v : Json) (path : List String)
    (fs : List (String × Json)) :
    (Json.obj ((k, v) :: fs)).lookup (name :: path) =
      if k = name then (v.lookup path).or ((Json.obj fs).lookup (name :: path))
      else (Json.obj fs).lookup (name :: path) := by
  simp only [Json.lookup, List.findSome?_cons]
  by_cases h : k = name
  · simp only [h, if_true]
    cases v.lookup path <;> rfl
  · simp only [h, if_false]

/-- The text at a path of a JSON text; nothing when the text is not JSON. -/
def getJsonObject (text : String) (path : List String) : Option String :=
  (parseJson text.toList).bind (Json.lookup path)

theorem getJsonObject_render (j : Json) (path : List String) :
    getJsonObject (String.ofList j.render) path = j.lookup path := by
  unfold getJsonObject
  rw [String.toList_ofList, parseJson_render]
  rfl

/-- Extraction from the text of an object is a lookup in its fields. -/
theorem getJsonObject_obj (fs : List (String × Json)) (path : List String) :
    ((Json.obj fs).text).bind (getJsonObject · path) = (Json.obj fs).lookup path := by
  change getJsonObject (String.ofList (Json.obj fs).render) path = _
  exact getJsonObject_render _ _

/-! ## Integers -/

theorem toDigits_head {n : Nat} (hn : 10 ≤ n) : (Nat.toDigits 10 n).head? ≠ some '0' := by
  induction n using Nat.strongRecOn with
  | ind n ih =>
    rw [Nat.toDigits_of_base_le (by decide) hn,
      List.head?_append_of_ne_nil _ Nat.toDigits_ne_nil]
    rcases Nat.lt_or_ge (n / 10) 10 with hlt | hge
    · rw [Nat.toDigits_of_lt_base hlt]
      have hdigit : ∀ d < 10, d ≠ 0 → [d.digitChar].head? ≠ some '0' := by decide
      exact hdigit _ hlt (by omega)
    · exact ih _ (by omega) hge

theorem isNumber_toString (n : Int) : isNumber (toString n).toList = true := by
  have hds := isDigit_toDigits n.natAbs
  have hne : Nat.toDigits 10 n.natAbs ≠ [] := Nat.toDigits_ne_nil
  have hstrip : (match (toString n).toList with
      | '-' :: r => r
      | r => r) = Nat.toDigits 10 n.natAbs := by
    obtain ⟨c, l, hl⟩ := List.exists_cons_of_ne_nil hne
    have hc : c ≠ '-' := by
      rintro rfl
      exact absurd (hds '-' (by rw [hl]; exact List.mem_cons_self)) (by decide)
    rw [toList_toString_int, signText, hl]
    by_cases hn : n < 0
    · simp [hn]
    · simp only [hn, if_false, List.nil_append]
      split
      · next h => exact absurd (List.cons.inj h).1 hc
      · rfl
  have hchars : ∀ c ∈ (toString n).toList, isNumChar c = true ∧ c ≠ '.' := by
    intro c hc
    rw [toList_toString_int] at hc
    rcases List.mem_append.1 hc with hc | hc
    · have : c = '-' := by
        unfold signText at hc
        split at hc
        · exact List.mem_singleton.1 hc
        · cases hc
      subst this
      decide
    · refine ⟨by simp [isNumChar, hds c hc], ?_⟩
      rintro rfl
      exact absurd (hds _ hc) (by decide)
  have hall : (toString n).toList.all isNumChar = true :=
    List.all_eq_true.2 fun c hc => (hchars c hc).1
  have hdot : (toString n).toList.contains '.' = false := by
    simpa using fun hc => (hchars '.' hc).2 rfl
  have hzero : (Nat.toDigits 10 n.natAbs).length = 1 ∨
      (Nat.toDigits 10 n.natAbs).head? ≠ some '0' := by
    rcases Nat.lt_or_ge n.natAbs 10 with hlt | hge
    · left; rw [Nat.toDigits_of_lt_base hlt]; rfl
    · exact .inr (toDigits_head hge)
  unfold isNumber
  simp only [hstrip, span_digits hds, takeFrac, hall, hdot]
  simpa [readExp, hne] using hzero

/-- An integer as a JSON number. -/
def Json.ofInt (n : Int) : Json := .num ⟨(toString n).toList, isNumber_toString n⟩

@[simp] theorem Json.text_ofInt (n : Int) : (Json.ofInt n).text = some n.repr := by
  simp [Json.ofInt, Json.text, Json.render]

end Lakehouse.Lib
