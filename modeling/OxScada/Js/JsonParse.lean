import OxScada.Js.KeyOrder
import OxScada.Js.Record

/-! `JSON.parse`, and what it reads of a text that `JSON.stringify` wrote. -/

namespace OxScada.Js
open OxScada.Bytes

/-! ### Properties -/

def indexValue (key : Text) : ℕ := key.foldl (fun n c => 10 * n + (c.toNat - '0'.toNat)) 0

def isIndex (key : Text) : Bool :=
  key ≠ [] ∧ key.all Char.isDigit ∧ (key = ['0'] ∨ key.head? ≠ some '0') ∧ indexValue key < 2 ^ 32 - 1

/-- The order in which an object enumerates its properties: indices first, by their values, and then the other keys as they came. -/
def enumerate {α : Type} (fields : List (Text × α)) : List (Text × α) :=
  (fields.filter fun field => isIndex field.1).insertionSort (fun x y => indexValue x.1 ≤ indexValue y.1) ++
    fields.filter fun field => ¬ isIndex field.1

theorem enumerate_perm {α : Type} (fields : List (Text × α)) : (enumerate fields).Perm fields := by
  refine ((List.perm_insertionSort _ _).append_right _).trans ?_
  simpa using List.filter_append_perm (fun field : Text × α => isIndex field.1) fields

theorem enumerate_map {α β : Type} {f : Text × α → Text × β} (hkey : ∀ field, (f field).1 = field.1) (fields : List (Text × α)) :
    enumerate (fields.map f) = (enumerate fields).map f := by
  have hindex : (fun field : Text × β => isIndex field.1) ∘ f = fun field => isIndex field.1 := by
    funext field
    rw [Function.comp_apply, hkey]
  have hother : (fun field : Text × β => decide ¬ isIndex field.1) ∘ f = fun field => decide ¬ isIndex field.1 := by
    funext field
    rw [Function.comp_apply, hkey]
  unfold enumerate
  rw [List.map_append, List.filter_map, List.filter_map, hindex, hother]
  congr 1
  refine (List.map_insertionSort _ _ f _ fun a _ b _ => ?_).symm
  rw [hkey, hkey]

theorem enumerate_keysOnly : KeysOnly enumerate := fun other fields => enumerate_map (f := rebuildField other) (fun _ => rfl) fields

/-- A property is defined. One that is there gets the new value. -/
def Fields.define (fields : Fields) (key : Text) (value : Json) : Fields :=
  if key ∈ Fields.keys fields then Record.replace fields key value else fields ++ [(key, value)]

/-! ### Tokens -/

def skipSpace (text : Text) : Text := text.dropWhile fun c => c ∈ [' ', '\t', '\n', '\r']

def readHexDigit (c : Char) : Option ℕ :=
  if '0' ≤ c ∧ c ≤ '9' then some (c.toNat - '0'.toNat)
  else if 'a' ≤ c ∧ c ≤ 'f' then some (c.toNat - 'a'.toNat + 10)
  else if 'A' ≤ c ∧ c ≤ 'F' then some (c.toNat - 'A'.toNat + 10)
  else none

def readUnit : Text → Option (ℕ × Text)
  | a :: b :: c :: d :: rest => do
    return (4096 * (← readHexDigit a) + 256 * (← readHexDigit b) + 16 * (← readHexDigit c) + (← readHexDigit d), rest)
  | _ => none

/-- What follows a backslash. A surrogate without its other half is not read. -/
def readEscape : Text → Option (Char × Text)
  | [] => none
  | c :: rest =>
    if c = '"' ∨ c = '\\' ∨ c = '/' then some (c, rest)
    else if c = 'b' then some (Char.ofNat 8, rest)
    else if c = 't' then some (Char.ofNat 9, rest)
    else if c = 'n' then some (Char.ofNat 10, rest)
    else if c = 'f' then some (Char.ofNat 12, rest)
    else if c = 'r' then some (Char.ofNat 13, rest)
    else if c = 'u' then
      match readUnit rest with
      | none => none
      | some (high, rest) =>
        if 0xd800 ≤ high ∧ high < 0xdc00 then
          match rest with
          | '\\' :: 'u' :: rest =>
            match readUnit rest with
            | some (low, rest) =>
              if 0xdc00 ≤ low ∧ low < 0xe000 then some (Char.ofNat (0x10000 + 0x400 * (high - 0xd800) + (low - 0xdc00)), rest) else none
            | none => none
          | _ => none
        else if 0xdc00 ≤ high ∧ high < 0xe000 then none
        else some (Char.ofNat high, rest)
    else none

/-- The inside of a string up to its closing quote. Each round takes a character, so the length of the text is enough of them. -/
def readChars : ℕ → Text → Option (Text × Text)
  | 0, _ => none
  | _ + 1, [] => none
  | rounds + 1, c :: rest =>
    if c = '"' then some ([], rest)
    else if c.toNat < 32 then none
    else if c = '\\' then
      match readEscape rest with
      | some (c, rest) => (readChars rounds rest).map fun found => (c :: found.1, found.2)
      | none => none
    else (readChars rounds rest).map fun found => (c :: found.1, found.2)

def readString (text : Text) : Option (Text × Text) :=
  match text with
  | '"' :: rest => readChars rest.length rest
  | _ => none

def readLiteral (word : Text) (value : Json) (text : Text) : Option (Json × Text) :=
  if word <+: text then some (value, text.drop word.length) else none

def readNumber (text : Text) : Option (Json × Text) :=
  let token := text.takeWhile fun c => c ∈ numberChars
  if h : token ≠ [] ∧ isNumberText token = true then
    some (.number ⟨token, h.1, fun _ hc => by simpa using List.mem_takeWhile_imp hc⟩, text.drop token.length)
  else none

/-! ### Values -/

mutual

def readValue : ℕ → Text → Option (Json × Text)
  | 0, _ => none
  | rounds + 1, text =>
    match skipSpace text with
    | [] => none
    | c :: rest =>
      if c = '"' then (readString (c :: rest)).map fun found => (.string found.1, found.2)
      else if c = '[' then
        if (skipSpace rest).head? = some ']' then some (.array [], (skipSpace rest).tail)
        else (readItems rounds rest).map fun found => (.array found.1, found.2)
      else if c = '{' then
        if (skipSpace rest).head? = some '}' then some (.object [], (skipSpace rest).tail)
        else (readMembers rounds [] rest).map fun found => (.object (enumerate found.1), found.2)
      else if c = 'n' then readLiteral ['n', 'u', 'l', 'l'] .null (c :: rest)
      else if c = 't' then readLiteral ['t', 'r', 'u', 'e'] (.bool true) (c :: rest)
      else if c = 'f' then readLiteral ['f', 'a', 'l', 's', 'e'] (.bool false) (c :: rest)
      else readNumber (c :: rest)

def readItems : ℕ → Text → Option (List Json × Text)
  | 0, _ => none
  | rounds + 1, text =>
    match readValue rounds text with
    | none => none
    | some (value, rest) =>
      match skipSpace rest with
      | ',' :: rest => (readItems rounds rest).map fun found => (value :: found.1, found.2)
      | ']' :: rest => some ([value], rest)
      | _ => none

/-- The properties that are left of an object, after those that were defined. -/
def readMembers : ℕ → Fields → Text → Option (Fields × Text)
  | 0, _, _ => none
  | rounds + 1, made, text =>
    match readString (skipSpace text) with
    | none => none
    | some (key, rest) =>
      match skipSpace rest with
      | ':' :: rest =>
        match readValue rounds rest with
        | none => none
        | some (value, rest) =>
          match skipSpace rest with
          | ',' :: rest => readMembers rounds (made.define key value) rest
          | '}' :: rest => some (made.define key value, rest)
          | _ => none
      | _ => none

end

/-- `JSON.parse(text)`, which throws where there is no value. Twice the length of the text is enough rounds, as a round that takes no
character is followed by one that does. -/
def parse (text : Text) : Option Json :=
  match readValue (2 * text.length + 2) text with
  | some (value, rest) => if skipSpace rest = [] then some value else none
  | none => none

/-! ### What was written is read -/

theorem readHexDigit_hexDigit : ∀ n < 16, readHexDigit (hexDigit n) = some n := by decide

theorem readChars_escape (rounds : ℕ) (c : Char) (rest : Text) :
    readChars (rounds + 1) (escape c ++ rest) = (readChars rounds rest).map fun found => (c :: found.1, found.2) := by
  have hchar : ∀ n, c.toNat = n → Char.ofNat n = c := by
    rintro n rfl
    exact Char.ofNat_toNat c
  unfold escape
  split_ifs with hquote hslash h8 h9 h10 h12 h13 hcontrol
  · rw [hquote]
    rfl
  · rw [hslash]
    rfl
  · rw [← hchar 8 h8]
    rfl
  · rw [← hchar 9 h9]
    rfl
  · rw [← hchar 10 h10]
    rfl
  · rw [← hchar 12 h12]
    rfl
  · rw [← hchar 13 h13]
    rfl
  · have hhigh := readHexDigit_hexDigit (c.toNat / 16) (by omega)
    have hlow := readHexDigit_hexDigit (c.toNat % 16) (by omega)
    have hunit : readUnit ('0' :: '0' :: hexDigit (c.toNat / 16) :: hexDigit (c.toNat % 16) :: rest) = some (c.toNat, rest) := by
      have hzero : readHexDigit '0' = some 0 := by decide
      have hsum : 4096 * 0 + 256 * 0 + 16 * (c.toNat / 16) + c.toNat % 16 = c.toNat := by omega
      unfold readUnit
      dsimp only
      rw [hzero, hhigh, hlow]
      exact congrArg (fun n => some (n, rest)) hsum
    have hescape : readEscape ('u' :: '0' :: '0' :: hexDigit (c.toNat / 16) :: hexDigit (c.toNat % 16) :: rest) = some (c, rest) := by
      unfold readEscape
      dsimp only
      rw [if_neg (by decide), if_neg (by decide), if_neg (by decide), if_neg (by decide), if_neg (by decide), if_neg (by decide), if_pos rfl, hunit]
      dsimp only
      rw [if_neg (by omega), if_neg (by omega), Char.ofNat_toNat]
    show readChars (rounds + 1) ('\\' :: 'u' :: '0' :: '0' :: hexDigit (c.toNat / 16) :: hexDigit (c.toNat % 16) :: rest) = _
    rw [readChars, if_neg (by decide), if_neg (by decide), if_pos rfl, hescape]
  · rw [List.singleton_append, readChars, if_neg hquote, if_neg hcontrol, if_neg hslash]

theorem readChars_inside {rounds : ℕ} {s : Text} (h : s.length < rounds) (r : Text) :
    readChars rounds (s.flatMap escape ++ '"' :: r) = some (s, r) := by
  induction s generalizing rounds with
  | nil =>
    obtain ⟨n, rfl⟩ := Nat.exists_eq_add_of_lt h
    rfl
  | cons c s ih =>
    obtain ⟨n, rfl⟩ : ∃ n, rounds = n + 1 := ⟨rounds - 1, by omega⟩
    rw [List.length_cons] at h
    rw [List.flatMap_cons, List.append_assoc, readChars_escape, ih (by omega)]
    rfl

theorem escape_length_pos (c : Char) : 0 < (escape c).length := by
  unfold escape
  split_ifs <;> simp

theorem length_le_inside (s : Text) : s.length ≤ (s.flatMap escape).length := by
  induction s with
  | nil => exact le_rfl
  | cons c s ih =>
    have hpos := escape_length_pos c
    rw [List.flatMap_cons, List.length_append, List.length_cons]
    omega

theorem readString_quote (s r : Text) : readString (quote s ++ r) = some (s, r) := by
  have hshape : quote s ++ r = '"' :: (s.flatMap escape ++ '"' :: r) := by simp [quote]
  have hlength := length_le_inside s
  rw [hshape]
  apply readChars_inside
  rw [List.length_append, List.length_cons]
  omega

theorem skipSpace_cons {c : Char} (h : c ∉ [' ', '\t', '\n', '\r']) (rest : Text) : skipSpace (c :: rest) = c :: rest :=
  List.dropWhile_cons_of_neg (by simpa using h)

theorem numberChars_unspaced {c : Char} (h : c ∈ numberChars) : c ∉ [' ', '\t', '\n', '\r'] ∧ c ∉ ['"', '[', '{', 'n', 't', 'f'] := by
  have hall : (numberChars.all fun c => c ∉ [' ', '\t', '\n', '\r'] ∧ c ∉ ['"', '[', '{', 'n', 't', 'f']) = true := by decide
  exact of_decide_eq_true (List.all_eq_true.mp hall c h)

theorem readNumber_text {n : JsonNumber} (hn : isNumberText n.text = true) {r : Text} (hr : Ends r) :
    readNumber (n.text ++ r) = some (.number n, r) := by
  have htoken := takeWhile_number n hr
  unfold readNumber
  dsimp only
  simp only [htoken, List.drop_left]
  rw [dif_pos ⟨n.nonempty, hn⟩]

theorem readLiteral_word (word r : Text) (value : Json) : readLiteral word value (word ++ r) = some (value, r) := by
  unfold readLiteral
  rw [if_pos (List.prefix_append word r), List.drop_left]

theorem skipSpace_stringify (j : Json) (r : Text) : skipSpace (stringify j ++ r) = stringify j ++ r := by
  obtain ⟨c, rest, htext, -, hmark⟩ := stringify_head j
  rw [htext]
  apply skipSpace_cons
  by_cases hnumber : c ∈ numberChars
  · exact (numberChars_unspaced hnumber).1
  · rw [markOf, if_neg hnumber] at hmark
    cases j with
    | bool value => cases value <;> rw [Option.some.inj hmark] <;> decide
    | number value => cases hmark
    | _ =>
      rw [Option.some.inj hmark]
      decide

def Reads (j : Json) : Prop :=
  ∀ rounds r, Ends r → 2 * (stringify j ++ r).length < rounds → readValue rounds (stringify j ++ r) = some (j.rebuild enumerate, r)

theorem stringify_length_pos (j : Json) : 0 < (stringify j).length := by
  obtain ⟨c, rest, htext, -, -⟩ := stringify_head j
  rw [htext, List.length_cons]
  exact Nat.succ_pos _

theorem readItems_stringify {items : List Json} (hne : items ≠ []) (h : ∀ j ∈ items, Reads j) {rounds : ℕ} {r : Text}
    (hrounds : 2 * (joinComma (items.map stringify) ++ ']' :: r).length + 1 < rounds) :
    readItems rounds (joinComma (items.map stringify) ++ ']' :: r) = some (items.map (Json.rebuild enumerate), r) := by
  induction items generalizing rounds with
  | nil => exact absurd rfl hne
  | cons j rest ih =>
    obtain ⟨n, rfl⟩ : ∃ n, rounds = n + 1 := ⟨rounds - 1, by omega⟩
    obtain ⟨hj, hrest⟩ := List.forall_mem_cons.mp h
    rw [List.map_cons, joinComma_cons, List.append_assoc] at hrounds ⊢
    cases rest with
    | nil =>
      simp only [List.map_nil, List.nil_append] at hrounds ⊢
      have hread := hj n (']' :: r) (ends_cons (by decide) r) (by omega)
      rw [readItems]
      simp only [hread, skipSpace_cons (show ']' ∉ [' ', '\t', '\n', '\r'] by decide)]
      rfl
    | cons next later =>
      have htail := @ih (List.cons_ne_nil _ _) hrest n
      have hpos := stringify_length_pos j
      simp only [List.map_cons, List.cons_append] at hrounds htail ⊢
      have hread := hj n (',' :: (joinComma (stringify next :: later.map stringify) ++ ']' :: r)) (ends_cons (by decide) _) (by omega)
      have hcomma : ∀ t, skipSpace (',' :: t) = ',' :: t := fun t => skipSpace_cons (by decide) t
      rw [readItems, hread]
      simp only [hcomma]
      rw [htail (by simp only [List.length_append, List.length_cons] at hrounds ⊢; omega)]
      rfl

theorem define_new {made : Fields} {key : Text} (h : key ∉ Fields.keys made) (value : Json) : made.define key value = made ++ [(key, value)] := by
  rw [Fields.define, if_neg h]

theorem readMembers_stringify {fields made : Fields} (hne : fields ≠ []) (h : ∀ field ∈ fields, Reads field.2) (hnodup : (Fields.keys fields).Nodup)
    (hnew : ∀ key ∈ Fields.keys fields, key ∉ Fields.keys made) {rounds : ℕ} {r : Text}
    (hrounds : 2 * (joinComma (fields.map fieldText) ++ '}' :: r).length < rounds) :
    readMembers rounds made (joinComma (fields.map fieldText) ++ '}' :: r) = some (made ++ fields.map (rebuildField enumerate), r) := by
  induction fields generalizing rounds made with
  | nil => exact absurd rfl hne
  | cons field rest ih =>
    obtain ⟨key, j⟩ := field
    obtain ⟨n, rfl⟩ : ∃ n, rounds = n + 1 := ⟨rounds - 1, by omega⟩
    obtain ⟨hj, hrest⟩ := List.forall_mem_cons.mp h
    obtain ⟨hfirst, hnodup⟩ := List.nodup_cons.mp hnodup
    obtain ⟨hkey, hnew⟩ := List.forall_mem_cons.mp hnew
    have hquote : ∀ t, skipSpace (quote key ++ t) = quote key ++ t := fun t => skipSpace_cons (by decide) _
    rw [List.map_cons, joinComma_cons, List.append_assoc] at hrounds ⊢
    simp only [fieldText, List.append_assoc, List.cons_append] at hrounds ⊢
    have hcolon : ∀ t, skipSpace (':' :: t) = ':' :: t := fun t => skipSpace_cons (by decide) t
    rw [readMembers, hquote, readString_quote]
    simp only [hcolon]
    cases rest with
    | nil =>
      have hread := hj n ('}' :: r) (ends_cons (by decide) r) (by simp only [List.map_nil, List.nil_append, List.length_append, List.length_cons] at hrounds ⊢; omega)
      simp only [List.map_nil, List.nil_append, hread, skipSpace_cons (show '}' ∉ [' ', '\t', '\n', '\r'] by decide)]
      rw [define_new hkey]
      rfl
    | cons next later =>
      have hmade : ∀ k ∈ Fields.keys (next :: later), k ∉ Fields.keys (made.define key (j.rebuild enumerate)) := by
        intro k hk hmem
        rw [define_new hkey, Fields.keys, List.map_append, List.mem_append] at hmem
        rcases hmem with hold | hsame
        · exact hnew k hk hold
        · obtain rfl : k = key := by simpa using hsame
          exact hfirst hk
      have htail := @ih _ (List.cons_ne_nil _ _) hrest hnodup hmade n
      simp only [List.map_cons, List.cons_append] at hrounds htail ⊢
      have hread := hj n (',' :: (joinComma (fieldText next :: later.map fieldText) ++ '}' :: r)) (ends_cons (by decide) _)
        (by simp only [List.length_append, List.length_cons] at hrounds ⊢; omega)
      have hcomma : ∀ t, skipSpace (',' :: t) = ',' :: t := fun t => skipSpace_cons (by decide) t
      rw [hread]
      simp only [hcomma]
      rw [htail (by simp only [List.length_append, List.length_cons] at hrounds ⊢; omega), define_new hkey, List.append_assoc]
      rfl

theorem reads_of_proper {j : Json} (hj : j.Proper) : Reads j := by
  induction j using Json.induction with
  | null =>
    intro rounds r hr hrounds
    obtain ⟨n, rfl⟩ : ∃ n, rounds = n + 1 := ⟨rounds - 1, by omega⟩
    rw [readValue, skipSpace_stringify]
    simpa [stringify, Json.rebuild] using readLiteral_word ['n', 'u', 'l', 'l'] r .null
  | bool value =>
    intro rounds r hr hrounds
    obtain ⟨n, rfl⟩ : ∃ n, rounds = n + 1 := ⟨rounds - 1, by omega⟩
    rw [readValue, skipSpace_stringify]
    cases value with
    | true => simpa [stringify, Json.rebuild] using readLiteral_word ['t', 'r', 'u', 'e'] r (.bool true)
    | false => simpa [stringify, Json.rebuild] using readLiteral_word ['f', 'a', 'l', 's', 'e'] r (.bool false)
  | number value =>
    intro rounds r hr hrounds
    obtain ⟨n, rfl⟩ : ∃ n, rounds = n + 1 := ⟨rounds - 1, by omega⟩
    have hvalue : isNumberText value.text = true := by
      cases hj with
      | number _ h => exact h
    have hread := readNumber_text hvalue hr
    have hskip := skipSpace_stringify (.number value) r
    obtain ⟨c, text, htext⟩ := List.exists_cons_of_ne_nil value.nonempty
    have hc : c ∈ numberChars := value.chars c (by simp [htext])
    have hother := (numberChars_unspaced hc).2
    simp only [List.mem_cons, List.not_mem_nil, or_false, not_or] at hother
    obtain ⟨hquote, harray, hobject, hn, ht, hf⟩ := hother
    rw [readValue, hskip]
    simp only [stringify, htext, List.cons_append] at hread ⊢
    rw [if_neg hquote, if_neg harray, if_neg hobject, if_neg hn, if_neg ht, if_neg hf, hread]
    rfl
  | string value =>
    intro rounds r hr hrounds
    obtain ⟨n, rfl⟩ : ∃ n, rounds = n + 1 := ⟨rounds - 1, by omega⟩
    have hread := readString_quote value r
    rw [readValue, skipSpace_stringify]
    show (readString (quote value ++ r)).map _ = _
    rw [hread]
    rfl
  | array items ih =>
    intro rounds r hr hrounds
    obtain ⟨n, rfl⟩ : ∃ n, rounds = n + 1 := ⟨rounds - 1, by omega⟩
    rw [readValue, skipSpace_stringify, Json.rebuild_array]
    have htext : stringify (.array items) ++ r = '[' :: (joinComma (items.map stringify) ++ ']' :: r) := by
      simp [stringify_array]
    rw [htext] at hrounds ⊢
    dsimp only
    rw [if_neg (by decide), if_pos rfl]
    by_cases hempty : items = []
    · subst hempty
      rfl
    -- the first item does not begin with the bracket that ends the array
    · have hhead : (skipSpace (joinComma (items.map stringify) ++ ']' :: r)).head? ≠ some ']' := by
        obtain ⟨j, rest, rfl⟩ := List.exists_cons_of_ne_nil hempty
        obtain ⟨c, text, hj, hc, -⟩ := stringify_head j
        rw [List.map_cons, joinComma_cons, List.append_assoc, skipSpace_stringify, hj]
        rintro ⟨⟩
        exact hc (by decide)
      rw [if_neg hhead, readItems_stringify hempty (fun item hitem => ih item hitem (hj.items item hitem)) (by simp at hrounds ⊢; omega)]
      rfl
  | object fields ih =>
    intro rounds r hr hrounds
    obtain ⟨n, rfl⟩ : ∃ n, rounds = n + 1 := ⟨rounds - 1, by omega⟩
    rw [readValue, skipSpace_stringify, Json.rebuild_object]
    have htext : stringify (.object fields) ++ r = '{' :: (joinComma (fields.map fieldText) ++ '}' :: r) := by
      simp [stringify_object]
    rw [htext] at hrounds ⊢
    dsimp only
    rw [if_neg (by decide), if_neg (by decide), if_pos rfl]
    by_cases hempty : fields = []
    · subst hempty
      rfl
    · have hhead : (skipSpace (joinComma (fields.map fieldText) ++ '}' :: r)).head? ≠ some '}' := by
        obtain ⟨⟨key, value⟩, rest, rfl⟩ := List.exists_cons_of_ne_nil hempty
        have hquote : ∀ t, skipSpace (quote key ++ t) = quote key ++ t := fun t => skipSpace_cons (by decide) _
        rw [List.map_cons, joinComma_cons, fieldText, List.append_assoc, List.append_assoc, hquote]
        rintro ⟨⟩
      rw [if_neg hhead, readMembers_stringify hempty (fun field hfield => ih field hfield (hj.fields field hfield)) hj.nodup
        (fun key _ => List.not_mem_nil) (by simp at hrounds ⊢; omega)]
      rfl

theorem parse_stringify {j : Json} (hj : j.Proper) : parse (stringify j) = some (j.rebuild enumerate) := by
  have hread := reads_of_proper hj (2 * (stringify j).length + 2) [] ends_nil (by simp)
  rw [List.append_nil] at hread
  unfold parse
  rw [hread]
  rfl

end OxScada.Js
