import OxScada.Js.Json

/-! The text of a value determines the value, with the order of its fields: each part of the text shows where it ends. The
canonical text is that of the value with its fields sorted at every depth, whatever order they are sorted by. -/

namespace OxScada.Js
open OxScada.Bytes

/-! ### Strings -/

def unhex (c : Char) : ℕ := ['0', '1', '2', '3', '4', '5', '6', '7', '8', '9', 'a', 'b', 'c', 'd', 'e', 'f'].idxOf c

theorem unhex_hexDigit : ∀ n < 16, unhex (hexDigit n) = n := by decide

/-- The first character of the inside of a string, and what follows it. -/
def unescape : Text → Option (Char × Text)
  | [] => none
  | c :: rest =>
    if c = '"' then none
    else if c ≠ '\\' then some (c, rest)
    else
      match rest with
      | [] => none
      | 'b' :: rest => some (Char.ofNat 8, rest)
      | 't' :: rest => some (Char.ofNat 9, rest)
      | 'n' :: rest => some (Char.ofNat 10, rest)
      | 'f' :: rest => some (Char.ofNat 12, rest)
      | 'r' :: rest => some (Char.ofNat 13, rest)
      | 'u' :: _ :: _ :: high :: low :: rest => some (Char.ofNat (16 * unhex high + unhex low), rest)
      | c :: rest => some (c, rest)

theorem unescape_escape (c : Char) (rest : Text) : unescape (escape c ++ rest) = some (c, rest) := by
  have hchar : ∀ n, c.toNat = n → Char.ofNat n = c := by
    rintro n rfl
    exact Char.ofNat_toNat c
  unfold escape
  split_ifs with hquote hslash h8 h9 h10 h12 h13 hcontrol
  · rw [hquote]
    rfl
  · rw [hslash]
    rfl
  · rw [← hchar 8 h8]
    rfl
  · rw [← hchar 9 h9]
    rfl
  · rw [← hchar 10 h10]
    rfl
  · rw [← hchar 12 h12]
    rfl
  · rw [← hchar 13 h13]
    rfl
  · have hdigits : Char.ofNat (16 * unhex (hexDigit (c.toNat / 16)) + unhex (hexDigit (c.toNat % 16))) = c := by
      rw [unhex_hexDigit _ (by omega), unhex_hexDigit _ (by omega), Nat.div_add_mod]
      exact Char.ofNat_toNat c
    change some (Char.ofNat (16 * unhex (hexDigit (c.toNat / 16)) + unhex (hexDigit (c.toNat % 16))), rest) = _
    rw [hdigits]
  · simp only [List.cons_append, List.nil_append, unescape, if_neg hquote, ne_eq, if_pos hslash]

theorem quote_append {s t r r' : Text} (h : quote s ++ r = quote t ++ r') : s = t ∧ r = r' := by
  have hinside : s.flatMap escape ++ '"' :: r = t.flatMap escape ++ '"' :: r' := by
    simpa only [quote, List.cons_append, List.append_assoc, List.nil_append, List.cons.injEq, true_and] using h
  clear h
  induction s generalizing t with
  | nil =>
    cases t with
    | nil => exact ⟨rfl, (List.cons.inj hinside).2⟩
    | cons d t =>
      have hread := congrArg unescape hinside
      rw [List.flatMap_cons, List.append_assoc, unescape_escape] at hread
      cases hread
  | cons c s ih =>
    cases t with
    | nil =>
      have hread := congrArg unescape hinside
      rw [List.flatMap_cons, List.append_assoc, unescape_escape] at hread
      cases hread
    | cons d t =>
      have hread := congrArg unescape hinside
      rw [List.flatMap_cons, List.flatMap_cons, List.append_assoc, List.append_assoc, unescape_escape, unescape_escape,
        Option.some.injEq, Prod.mk.injEq] at hread
      obtain ⟨hs, hr⟩ := ih hread.2
      exact ⟨by rw [hread.1, hs], hr⟩

/-! ### What a text may begin and end with -/

def delimiters : Text := [',', ']', '}']

def Ends (r : Text) : Prop := ∀ c ∈ r.head?, c ∈ delimiters

/-- The text of a value is not empty, and does not begin with a delimiter. -/
def Begins (t : Text) : Prop := ∃ c rest, t = c :: rest ∧ c ∉ delimiters

theorem ends_cons {c : Char} (h : c ∈ delimiters) (r : Text) : Ends (c :: r) := by
  intro c' hc'
  obtain rfl := Option.some.inj hc'
  exact h

theorem Begins.append {t : Text} (h : Begins t) (r : Text) : Begins (t ++ r) := by
  obtain ⟨c, rest, rfl, hc⟩ := h
  exact ⟨c, rest ++ r, rfl, hc⟩

theorem Begins.ne_delimiter {t : Text} (h : Begins t) {c : Char} (hc : c ∈ delimiters) (r : Text) : t ≠ c :: r := by
  obtain ⟨c', rest, rfl, hc'⟩ := h
  intro heq
  obtain ⟨rfl, -⟩ := List.cons.inj heq
  exact hc' hc

section Lists
variable {α : Type*} {f : α → Text} {xs ys : List α} {close : Char} {r s : Text}

theorem joinComma_cons (t : Text) (texts : List Text) :
    joinComma (t :: texts) = t ++ match texts with
      | [] => []
      | _ :: _ => ',' :: joinComma texts := by
  cases texts with
  | nil => exact (List.append_nil t).symm
  | cons t' texts => rfl

theorem joinComma_injective (hclose : close ∈ delimiters) (hcomma : close ≠ ',') (hf : ∀ x, Begins (f x))
    (hitems : ∀ x ∈ xs, ∀ y ∈ ys, ∀ r s, f x ++ r = f y ++ s → Ends r → Ends s → x = y ∧ r = s)
    (h : joinComma (xs.map f) ++ close :: r = joinComma (ys.map f) ++ close :: s) : xs = ys ∧ r = s := by
  have htail : ∀ zs : List α, ∀ t, Ends ((match zs.map f with
      | [] => []
      | _ :: _ => ',' :: joinComma (zs.map f)) ++ close :: t) := by
    intro zs t
    cases zs with
    | nil => exact ends_cons hclose t
    | cons z zs => exact ends_cons (by decide) _
  induction xs generalizing ys with
  | nil =>
    cases ys with
    | nil => exact ⟨rfl, (List.cons.inj h).2⟩
    | cons y ys =>
      rw [List.map_cons, joinComma_cons, List.append_assoc] at h
      exact absurd h.symm (((hf y).append _).ne_delimiter hclose r)
  | cons x xs ih =>
    cases ys with
    | nil =>
      rw [List.map_cons, joinComma_cons, List.append_assoc] at h
      exact absurd h (((hf x).append _).ne_delimiter hclose s)
    | cons y ys =>
      rw [List.map_cons, List.map_cons, joinComma_cons, joinComma_cons, List.append_assoc, List.append_assoc] at h
      obtain ⟨rfl, hrest⟩ := hitems x (List.mem_cons_self ..) y (List.mem_cons_self ..) _ _ h (htail xs r) (htail ys s)
      have hitems' : ∀ x' ∈ xs, ∀ y' ∈ ys, ∀ r s, f x' ++ r = f y' ++ s → Ends r → Ends s → x' = y' ∧ r = s :=
        fun x' hx' y' hy' => hitems x' (List.mem_cons_of_mem x hx') y' (List.mem_cons_of_mem x hy')
      cases xs with
      | nil =>
        cases ys with
        | nil => exact ⟨rfl, (List.cons.inj hrest).2⟩
        | cons y' ys => exact absurd (List.cons.inj hrest).1 hcomma
      | cons x' xs =>
        cases ys with
        | nil => exact absurd (List.cons.inj hrest).1.symm hcomma
        | cons y' ys =>
          obtain ⟨hxs, hrs⟩ := ih hitems' (List.cons.inj hrest).2
          exact ⟨by rw [hxs], hrs⟩

end Lists

/-! ### Texts -/

mutual

/-- `JSON.stringify(value)`, with the fields of an object in their order. -/
def stringify : Json → Text
  | .null => ['n', 'u', 'l', 'l']
  | .bool true => ['t', 'r', 'u', 'e']
  | .bool false => ['f', 'a', 'l', 's', 'e']
  | .number value => value.text
  | .string value => quote value
  | .array items => '[' :: joinComma (stringifyItems items) ++ [']']
  | .object fields => '{' :: joinComma (stringifyFields fields) ++ ['}']

def stringifyItems : List Json → List Text
  | [] => []
  | j :: rest => stringify j :: stringifyItems rest

def stringifyFields : List (Text × Json) → List Text
  | [] => []
  | (key, j) :: rest => (quote key ++ ':' :: stringify j) :: stringifyFields rest

end

def fieldText (field : Text × Json) : Text := quote field.1 ++ ':' :: stringify field.2

theorem stringifyItems_eq (items : List Json) : stringifyItems items = items.map stringify := by
  induction items with
  | nil => rfl
  | cons j rest ih => rw [stringifyItems, ih, List.map_cons]

theorem stringifyFields_eq (fields : Fields) : stringifyFields fields = fields.map fieldText := by
  induction fields with
  | nil => rfl
  | cons field rest ih =>
    obtain ⟨key, j⟩ := field
    rw [stringifyFields, ih, List.map_cons]
    rfl

theorem stringify_array (items : List Json) : stringify (.array items) = '[' :: joinComma (items.map stringify) ++ [']'] := by
  rw [stringify, stringifyItems_eq]

theorem stringify_object (fields : Fields) : stringify (.object fields) = '{' :: joinComma (fields.map fieldText) ++ ['}'] := by
  rw [stringify, stringifyFields_eq]

/-- The character that shows the kind of a value. A number has many. -/
def Json.mark : Json → Option Char
  | .null => some 'n'
  | .bool true => some 't'
  | .bool false => some 'f'
  | .number _ => none
  | .string _ => some '"'
  | .array _ => some '['
  | .object _ => some '{'

def markOf (c : Char) : Option Char := if c ∈ numberChars then none else some c

theorem numberChars_disjoint {c : Char} (h : c ∈ numberChars) : c ∉ delimiters := by
  have hall : (numberChars.all fun c => c ∉ delimiters) = true := by decide
  exact of_decide_eq_true (List.all_eq_true.mp hall c h)

theorem stringify_head (j : Json) : ∃ c rest, stringify j = c :: rest ∧ c ∉ delimiters ∧ markOf c = j.mark := by
  cases j with
  | null => exact ⟨'n', _, rfl, by decide, rfl⟩
  | bool value => cases value <;> exact ⟨_, _, rfl, by decide, rfl⟩
  | number value =>
    obtain ⟨c, rest, htext⟩ := List.exists_cons_of_ne_nil value.nonempty
    have hc : c ∈ numberChars := value.chars c (by rw [htext]; exact List.mem_cons_self ..)
    exact ⟨c, rest, htext, numberChars_disjoint hc, if_pos hc⟩
  | string value => exact ⟨'"', _, rfl, by decide, rfl⟩
  | array items =>
    rw [stringify_array]
    exact ⟨'[', _, rfl, by decide, rfl⟩
  | object fields =>
    rw [stringify_object]
    exact ⟨'{', _, rfl, by decide, rfl⟩

theorem stringify_begins (j : Json) : Begins (stringify j) := by
  obtain ⟨c, rest, htext, hc, -⟩ := stringify_head j
  exact ⟨c, rest, htext, hc⟩

theorem fieldText_begins (field : Text × Json) : Begins (fieldText field) := ⟨'"', _, rfl, by decide⟩

theorem mark_eq {x y : Json} {r s : Text} (h : stringify x ++ r = stringify y ++ s) : x.mark = y.mark := by
  obtain ⟨c, rest, hx, -, hc⟩ := stringify_head x
  obtain ⟨d, rest', hy, -, hd⟩ := stringify_head y
  rw [hx, hy] at h
  rw [← hc, ← hd, (List.cons.inj h).1]

theorem takeWhile_number (n : JsonNumber) {r : Text} (hr : Ends r) : (n.text ++ r).takeWhile (· ∈ numberChars) = n.text := by
  rw [List.takeWhile_append_of_pos (by simpa using n.chars)]
  have hstop : r.takeWhile (· ∈ numberChars) = [] := by
    rcases r with _ | ⟨c, r⟩
    · rfl
    · have hc : c ∈ delimiters := hr c rfl
      have hnot : c ∉ numberChars := fun hnumber => numberChars_disjoint hnumber hc
      simp [hnot]
  rw [hstop, List.append_nil]

theorem JsonNumber.eq_of_text {x y : JsonNumber} (h : x.text = y.text) : x = y := by
  cases x
  cases y
  congr

theorem number_append {x y : JsonNumber} {r s : Text} (h : x.text ++ r = y.text ++ s) (hr : Ends r) (hs : Ends s) :
    x = y ∧ r = s := by
  have htext : x.text = y.text := by rw [← takeWhile_number x hr, ← takeWhile_number y hs, h]
  refine ⟨JsonNumber.eq_of_text htext, ?_⟩
  rw [htext] at h
  exact List.append_cancel_left h

theorem stringify_append {x y : Json} {r s : Text} (h : stringify x ++ r = stringify y ++ s) (hr : Ends r) (hs : Ends s) :
    x = y ∧ r = s := by
  have hmark := mark_eq h
  induction x using Json.induction generalizing y r s with
  | null =>
    cases y <;> try cases hmark
    case null => exact ⟨rfl, List.append_cancel_left h⟩
    case bool value => cases value <;> cases hmark
  | bool value =>
    cases y <;> cases value <;> try cases hmark
    all_goals
      rename_i value'
      cases value' <;> try cases hmark
      exact ⟨rfl, List.append_cancel_left h⟩
  | number value =>
    cases y <;> try cases hmark
    case bool value' => cases value' <;> cases hmark
    case number value' =>
      obtain ⟨rfl, hrest⟩ := number_append h hr hs
      exact ⟨rfl, hrest⟩
  | string value =>
    cases y <;> try cases hmark
    case bool value' => cases value' <;> cases hmark
    case string value' =>
      obtain ⟨rfl, hrest⟩ := quote_append h
      exact ⟨rfl, hrest⟩
  | array items ih =>
    cases y <;> try cases hmark
    case bool value' => cases value' <;> cases hmark
    case array items' =>
      rw [stringify_array, stringify_array, List.append_assoc, List.append_assoc] at h
      obtain ⟨rfl, hrest⟩ := joinComma_injective (by decide) (by decide) stringify_begins
        (fun x hx y _ r s hxy hr hs => ih x hx hxy hr hs (mark_eq hxy)) (List.cons.inj h).2
      exact ⟨rfl, hrest⟩
  | object fields ih =>
    cases y <;> try cases hmark
    case bool value' => cases value' <;> cases hmark
    case object fields' =>
      rw [stringify_object, stringify_object, List.append_assoc, List.append_assoc] at h
      obtain ⟨rfl, hrest⟩ := joinComma_injective (by decide) (by decide) fieldText_begins (by
        intro x hx y _ r s hxy hr hs
        rw [fieldText, fieldText, List.append_assoc, List.append_assoc] at hxy
        obtain ⟨hkey, hvalue⟩ := quote_append hxy
        have hvalue := (List.cons.inj hvalue).2
        obtain ⟨hjson, hrest⟩ := ih x hx hvalue hr hs (mark_eq hvalue)
        exact ⟨Prod.ext hkey hjson, hrest⟩) (List.cons.inj h).2
      exact ⟨rfl, hrest⟩

theorem ends_nil : Ends [] := fun c hc => by cases hc

theorem stringify_injective : Function.Injective stringify := by
  intro x y h
  have happend : stringify x ++ [] = stringify y ++ [] := by rw [h]
  exact (stringify_append happend ends_nil ends_nil).1

/-! ### The fields of every object -/

section Rebuild
variable (arrange : Fields → Fields)

mutual

/-- The value with the fields of every object in it arranged anew. -/
def Json.rebuild : Json → Json
  | .null => .null
  | .bool value => .bool value
  | .number value => .number value
  | .string value => .string value
  | .array items => .array (Json.rebuildItems items)
  | .object fields => .object (arrange (Json.rebuildFields fields))

def Json.rebuildItems : List Json → List Json
  | [] => []
  | j :: rest => Json.rebuild j :: Json.rebuildItems rest

def Json.rebuildFields : List (Text × Json) → List (Text × Json)
  | [] => []
  | (key, j) :: rest => (key, Json.rebuild j) :: Json.rebuildFields rest

end

def rebuildField (field : Text × Json) : Text × Json := (field.1, field.2.rebuild arrange)

theorem Json.rebuildItems_eq (items : List Json) : Json.rebuildItems arrange items = items.map (Json.rebuild arrange) := by
  induction items with
  | nil => rfl
  | cons j rest ih => rw [Json.rebuildItems, ih, List.map_cons]

theorem Json.rebuildFields_eq (fields : Fields) : Json.rebuildFields arrange fields = fields.map (rebuildField arrange) := by
  induction fields with
  | nil => rfl
  | cons field rest ih =>
    obtain ⟨key, j⟩ := field
    rw [Json.rebuildFields, ih, List.map_cons]
    rfl

theorem Json.rebuild_array (items : List Json) : (Json.array items).rebuild arrange = .array (items.map (Json.rebuild arrange)) := by
  rw [Json.rebuild, Json.rebuildItems_eq]

theorem Json.rebuild_object (fields : Fields) : (Json.object fields).rebuild arrange = .object (arrange (fields.map (rebuildField arrange))) := by
  rw [Json.rebuild, Json.rebuildFields_eq]

theorem rebuildField_keys (fields : Fields) : Fields.keys (fields.map (rebuildField arrange)) = fields.keys := by
  unfold Fields.keys
  rw [List.map_map]
  rfl

end Rebuild

/-! ### Canonical texts -/

section Values
variable {localeCompare : Text → Text → ℤ}

theorem sortEntries_map (localeCompare : Text → Text → ℤ) {α β : Type} {f : Text × α → Text × β} (hkey : ∀ entry, (f entry).1 = entry.1) (entries : List (Text × α)) :
    sortEntries localeCompare (entries.map f) = (sortEntries localeCompare entries).map f := by
  refine (List.map_insertionSort (entryLe localeCompare) (entryLe localeCompare) f entries fun a _ b _ => ?_).symm
  unfold entryLe
  rw [hkey, hkey]

theorem canonicalJson_eq (j : Json) : canonicalJson localeCompare j = stringify (j.rebuild (sortEntries localeCompare)) := by
  induction j using Json.induction with
  | null | number | string => rfl
  | bool value => cases value <;> rfl
  | array items ih =>
    rw [Json.rebuild_array, stringify_array, canonicalJson, itemTexts_eq, List.map_map]
    congr 3
    exact List.map_congr_left ih
  | object fields ih =>
    have htexts : (fieldTexts localeCompare fields) = fields.map fun field => (field.1, stringify (field.2.rebuild (sortEntries localeCompare))) := by
      rw [fieldTexts_eq]
      apply List.map_congr_left
      intro field hfield
      rw [ih field hfield]
    have hwritten := sortEntries_map localeCompare
      (f := fun field : Text × Json => (field.1, stringify (field.2.rebuild (sortEntries localeCompare)))) (fun _ => rfl) fields
    have hrebuilt := sortEntries_map localeCompare (f := rebuildField (sortEntries localeCompare)) (fun _ => rfl) fields
    rw [Json.rebuild_object, stringify_object, canonicalJson, htexts, hwritten, hrebuilt, List.map_map, List.map_map]
    rfl

theorem sortEntries_injective {fields fields' : Fields} (hsorted : (Fields.keys fields).Pairwise (· < ·))
    (hsorted' : (Fields.keys fields').Pairwise (· < ·))
    (h : sortEntries localeCompare fields = sortEntries localeCompare fields') : fields = fields' := by
  have hperm : fields.Perm fields' :=
    (List.perm_insertionSort (entryLe localeCompare) fields).symm.trans
      ((List.Perm.of_eq h).trans (List.perm_insertionSort (entryLe localeCompare) fields'))
  have hlt : fields.Pairwise fun x y => x.1 < y.1 := List.pairwise_map.mp hsorted
  have hlt' : fields'.Pairwise fun x y => x.1 < y.1 := List.pairwise_map.mp hsorted'
  exact hperm.eq_of_pairwise (fun x y _ _ hxy hyx => absurd hyx (lt_asymm hxy)) hlt hlt'

theorem rebuild_injective {x : Json} (hx : x.WellFormed) {y : Json} (hy : y.WellFormed)
    (h : x.rebuild (sortEntries localeCompare) = y.rebuild (sortEntries localeCompare)) : x = y := by
  induction x using Json.induction generalizing y with
  | null => cases hy <;> first | rfl | cases h
  | bool value =>
    cases hy with
    | bool value' => exact h
    | _ => cases h
  | number value =>
    cases hy with
    | number value' => exact h
    | _ => cases h
  | string value =>
    cases hy with
    | string value' => exact h
    | _ => cases h
  | array items ih =>
    cases hy with
    | array hitems' =>
      rw [Json.rebuild_array, Json.rebuild_array, Json.array.injEq] at h
      congr 1
      refine List.ext_getElem (by simpa using congrArg List.length h) fun i hi hi' => ?_
      have hget := List.getElem_of_eq h (i := i) (by simpa using hi)
      rw [List.getElem_map, List.getElem_map] at hget
      exact ih _ (List.getElem_mem hi) (hx.items _ (List.getElem_mem hi)) (hitems' _ (List.getElem_mem hi')) hget
    | _ => cases h
  | object fields ih =>
    cases hy with
    | object hsorted' hfields' =>
      rename_i fields'
      rw [Json.rebuild_object, Json.rebuild_object, Json.object.injEq] at h
      have hmapped := sortEntries_injective (by rw [rebuildField_keys]; exact hx.sorted) (by rw [rebuildField_keys]; exact hsorted') h
      congr 1
      refine List.ext_getElem (by simpa using congrArg List.length hmapped) fun i hi hi' => ?_
      have hget := List.getElem_of_eq hmapped (i := i) (by simpa using hi)
      rw [List.getElem_map, List.getElem_map] at hget
      obtain ⟨hkey, hvalue⟩ := Prod.mk.inj hget
      exact Prod.ext hkey (ih _ (List.getElem_mem hi) (hx.fields _ (List.getElem_mem hi)) (hfields' _ (List.getElem_mem hi')) hvalue)
    | _ => cases h

theorem canonicalJson_injective {x y : Json} (hx : x.WellFormed) (hy : y.WellFormed)
    (h : canonicalJson localeCompare x = canonicalJson localeCompare y) : x = y := by
  rw [canonicalJson_eq, canonicalJson_eq] at h
  exact rebuild_injective hx hy (stringify_injective h)

end Values

end OxScada.Js
