import Mathlib
import SchemaLedger.Database
import SchemaLedger.Json.Reader
import SchemaLedger.Proofs.Json.Number

/-!
# Values as JSON

A value that is written says where it ends and what it is: a string ends at its closing quote, a
word or a number at the first character that belongs to neither, and an array or object at its
bracket. So values with one text are one value, and rows are kept under one text exactly when their
keys agree.
-/

namespace SchemaLedger

namespace Json

/-! ## Strings -/

theorem hexWord?_hexByte : ∀ n < 32, hexWord? '0' '0' (Digest.hexDigit (n / 16))
    (Digest.hexDigit (n % 16)) = some n := by
  decide

/-- What a character may be written as. -/
theorem escapeChar_cases (c : Char) :
    (∃ d, escapeChar c = ['\\', d] ∧ d ≠ 'u' ∧ unescapeChar? d = some c) ∨
      (∃ a b, escapeChar c = ['\\', 'u', '0', '0', a, b] ∧ hexWord? '0' '0' a b = some c.toNat ∧
        c.toNat < 32) ∨
      (escapeChar c = [c] ∧ c ≠ '\\' ∧ c ≠ '"' ∧ ¬c.toNat < 32) := by
  have hletter {d : Char} (h : escapeChar c = ['\\', d]) (hu : d ≠ 'u')
      (hd : unescapeChar? d = some c) :
      ∃ d, escapeChar c = ['\\', d] ∧ d ≠ 'u' ∧ unescapeChar? d = some c :=
    ⟨d, h, hu, hd⟩
  by_cases hquote : c = '"'
  · subst hquote
    exact Or.inl (hletter rfl (by decide) rfl)
  by_cases hbackslash : c = '\\'
  · subst hbackslash
    exact Or.inl (hletter rfl (by decide) rfl)
  by_cases hn : c = '\n'
  · subst hn
    exact Or.inl (hletter rfl (by decide) rfl)
  by_cases hr : c = '\r'
  · subst hr
    exact Or.inl (hletter rfl (by decide) rfl)
  by_cases ht : c = '\t'
  · subst ht
    exact Or.inl (hletter rfl (by decide) rfl)
  by_cases hb : c = '\x08'
  · subst hb
    exact Or.inl (hletter rfl (by decide) rfl)
  by_cases hf : c = '\x0c'
  · subst hf
    exact Or.inl (hletter rfl (by decide) rfl)
  refine Or.inr ?_
  rw [escapeChar, if_neg hquote, if_neg hbackslash, if_neg hn, if_neg hr, if_neg ht, if_neg hb,
    if_neg hf]
  by_cases hcontrol : c.toNat < 32
  · have hbyte : (UInt8.ofNat c.toNat).toNat = c.toNat := by
      rw [UInt8.toNat_ofNat']
      omega
    refine Or.inl ⟨_, _, by rw [if_pos hcontrol]; rfl, ?_, hcontrol⟩
    rw [hbyte]
    exact hexWord?_hexByte c.toNat hcontrol
  · exact Or.inr ⟨if_neg hcontrol, hbackslash, hquote, hcontrol⟩

theorem stringBody_escapeChar (c : Char) (cs : List Char) :
    stringBody (escapeChar c ++ cs) = consBody (escapeChar c) (stringBody cs) := by
  rcases escapeChar_cases c with ⟨d, hc, hu, hd⟩ | ⟨a, b, hc, hword, -⟩
    | ⟨hc, hbackslash, hquote, hcontrol⟩
  · rw [hc]
    change stringBody ('\\' :: d :: cs) = _
    rw [stringBody, hd]
    · rfl
    · exact fun _ _ _ _ _ h _ ↦ hu h
  · rw [hc]
    change stringBody ('\\' :: 'u' :: '0' :: '0' :: a :: b :: cs) = _
    rw [stringBody, hword]
    rfl
  · rw [hc]
    change stringBody (c :: cs) = _
    rw [stringBody, if_neg hcontrol]
    all_goals simp_all

theorem stringBody_escape (cs rest : List Char) :
    stringBody (cs.flatMap escapeChar ++ '"' :: rest) = some (cs.flatMap escapeChar, rest) := by
  induction cs with
  | nil => rfl
  | cons c cs ih =>
    rw [List.flatMap_cons, List.append_assoc, stringBody_escapeChar, ih]
    rfl

theorem unescape?_escapeChar (c : Char) (cs : List Char) :
    unescape? (escapeChar c ++ cs) = (unescape? cs).map (c :: ·) := by
  rcases escapeChar_cases c with ⟨d, hc, hu, hd⟩ | ⟨a, b, hc, hword, hcontrol⟩
    | ⟨hc, hbackslash, -, -⟩
  · rw [hc]
    change unescape? ('\\' :: d :: cs) = _
    rw [unescape?, hd]
    · cases unescape? cs <;> rfl
    · exact fun _ _ _ _ _ h _ ↦ hu h
  · have hchar : unitChar? c.toNat = some c := by
      rw [unitChar?, if_pos (Or.inl (by omega)), Char.ofNat_toNat]
    rw [hc]
    change unescape? ('\\' :: 'u' :: '0' :: '0' :: a :: b :: cs) = _
    rw [unescape?, hword]
    change (if _ then _ else _) = _
    rw [if_neg (by omega), hchar]
    cases unescape? cs <;> rfl
  · rw [hc]
    change unescape? (c :: cs) = _
    rw [unescape?]
    · cases unescape? cs <;> rfl
    all_goals simp_all

theorem unescape?_escape (cs : List Char) : unescape? (cs.flatMap escapeChar) = some cs := by
  induction cs with
  | nil => rfl
  | cons c cs ih => rw [List.flatMap_cons, unescape?_escapeChar, ih, Option.map_some]

/-- A written string says where it ends and what it is. -/
theorem eq_of_quoted_append {s t : String} {xs ys : List Char}
    (h : quoted s ++ xs = quoted t ++ ys) :
    s = t ∧ xs = ys := by
  simp only [quoted, List.cons_append, List.append_assoc, List.nil_append] at h
  have hbody := congrArg stringBody (List.cons.inj h).2
  rw [stringBody_escape, stringBody_escape] at hbody
  obtain ⟨hescaped, hrest⟩ := Prod.mk.inj (Option.some.inj hbody)
  have hchars := congrArg unescape? hescaped
  rw [unescape?_escape, unescape?_escape] at hchars
  exact ⟨String.toList_injective (Option.some.inj hchars), hrest⟩

/-! ## Words and numbers -/

/-- What may follow a word. -/
def EndsWord (rest : List Char) : Prop := ∀ c ∈ rest.head?, isWordChar c = false

theorem EndsWord.cons {c : Char} (hc : isWordChar c = false) (rest : List Char) :
    EndsWord (c :: rest) := by
  rintro d ⟨⟩
  exact hc

/-- The text of a value without quotes and brackets. -/
def word? : Json → Option (List Char)
  | .null => some "null".toList
  | .bool true => some "true".toList
  | .bool false => some "false".toList
  | .number x => some x.text
  | _ => none

theorem compact_of_word? {j : Json} {w : List Char} (h : j.word? = some w) : j.compact = w := by
  match j, h with
  | .null, rfl => rw [compact]
  | .bool true, rfl => rw [compact]
  | .bool false, rfl => rw [compact]
  | .number x, rfl => rw [compact]

theorem exists_of_word? {j : Json} {w : List Char} (h : j.word? = some w) :
    (∃ c cs, w = c :: cs) ∧ ∀ c ∈ w, isWordChar c = true := by
  match j, h with
  | .null, rfl => exact ⟨⟨_, _, rfl⟩, List.all_eq_true.1 rfl⟩
  | .bool true, rfl => exact ⟨⟨_, _, rfl⟩, List.all_eq_true.1 rfl⟩
  | .bool false, rfl => exact ⟨⟨_, _, rfl⟩, List.all_eq_true.1 rfl⟩
  | .number x, rfl =>
    obtain ⟨c, cs, htext, -⟩ := x.head_text
    exact ⟨⟨c, cs, htext⟩, fun d hd ↦ Number.isWordChar_of_mem_text hd⟩

theorem word?_injective {i j : Json} {w : List Char} (hi : i.word? = some w)
    (hj : j.word? = some w) :
    i = j := by
  have hnumber {x : Number} {c : Char} {cs : List Char} (h : some x.text = some (c :: cs))
      (hc : c.isDigit = false) (hminus : c ≠ '-') : False := by
    obtain ⟨d, ds, htext, hd⟩ := x.head_text
    rw [htext] at h
    obtain rfl := (List.cons.inj (Option.some.inj h)).1
    rcases hd with hd | rfl
    · rw [hd] at hc
      contradiction
    · exact hminus rfl
  match i, j, hi, hj with
  | .null, .null, _, _ => rfl
  | .bool true, .bool true, _, _ => rfl
  | .bool false, .bool false, _, _ => rfl
  | .number x, .number y, hi, hj =>
    rw [Number.text_injective (Option.some.inj (hi.trans hj.symm))]
  | .null, .number x, rfl, hj => exact (hnumber hj rfl (by decide)).elim
  | .bool true, .number x, rfl, hj => exact (hnumber hj rfl (by decide)).elim
  | .bool false, .number x, rfl, hj => exact (hnumber hj rfl (by decide)).elim
  | .number x, .null, hi, rfl => exact (hnumber hi rfl (by decide)).elim
  | .number x, .bool true, hi, rfl => exact (hnumber hi rfl (by decide)).elim
  | .number x, .bool false, hi, rfl => exact (hnumber hi rfl (by decide)).elim

/-! ## The first character of a value -/

/-- The quote or bracket that a value begins with; words and numbers have none. -/
def mark? : Json → Option Char
  | .string _ => some '"'
  | .array _ => some '['
  | .object _ => some '\x7b'
  | _ => none

theorem exists_compact_cons (j : Json) :
    ∃ c cs, j.compact = c :: cs ∧ j.mark? = if isWordChar c then none else some c := by
  have hword {w : List Char} (h : j.word? = some w) (hmark : j.mark? = none) :
      ∃ c cs, j.compact = c :: cs ∧ j.mark? = if isWordChar c then none else some c := by
    obtain ⟨⟨c, cs, rfl⟩, hall⟩ := exists_of_word? h
    exact ⟨c, cs, compact_of_word? h, by rw [if_pos (hall c List.mem_cons_self), hmark]⟩
  match j with
  | .null => exact hword rfl rfl
  | .bool true => exact hword rfl rfl
  | .bool false => exact hword rfl rfl
  | .number x => exact hword rfl rfl
  | .string s => exact ⟨_, _, by rw [compact, quoted]; rfl, rfl⟩
  | .array items => exact ⟨_, _, by rw [compact]; rfl, rfl⟩
  | .object fields => exact ⟨_, _, by rw [compact]; rfl, rfl⟩

theorem mark?_eq {i j : Json} {r s : List Char} (h : i.compact ++ r = j.compact ++ s) :
    i.mark? = j.mark? := by
  obtain ⟨c, cs, hi, hmark⟩ := exists_compact_cons i
  obtain ⟨d, ds, hj, hmark'⟩ := exists_compact_cons j
  rw [hi, hj] at h
  rw [hmark, hmark', (List.cons.inj h).1]

/-- No value begins with the bracket that closes an array. -/
theorem compact_append_ne (j : Json) (r s : List Char) : j.compact ++ r ≠ ']' :: s := by
  obtain ⟨c, cs, hj, hmark⟩ := exists_compact_cons j
  rw [hj]
  intro h
  obtain rfl := (List.cons.inj h).1
  rw [show isWordChar ']' = false from rfl] at hmark
  cases j <;> exact absurd hmark (by simp [mark?])

theorem eq_of_word_append {i j : Json} {w r s : List Char} (hi : i.word? = some w) (hr : EndsWord r)
    (hs : EndsWord s) (h : i.compact ++ r = j.compact ++ s) : i = j ∧ r = s := by
  have hmark : i.mark? = none := by
    match i, hi with
    | .null, _ => rfl
    | .bool _, _ => rfl
    | .number _, _ => rfl
  obtain ⟨w', hj⟩ : ∃ w', j.word? = some w' := by
    have hmark' := hmark ▸ mark?_eq h
    match j, hmark' with
    | .null, _ => exact ⟨_, rfl⟩
    | .bool true, _ => exact ⟨_, rfl⟩
    | .bool false, _ => exact ⟨_, rfl⟩
    | .number _, _ => exact ⟨_, rfl⟩
  rw [compact_of_word? hi, compact_of_word? hj] at h
  have hspan := congrArg (List.span isWordChar) h
  rw [span_append (exists_of_word? hi).2 hr, span_append (exists_of_word? hj).2 hs] at hspan
  obtain ⟨rfl, hrest⟩ := Prod.mk.inj hspan
  exact ⟨word?_injective hi hj, hrest⟩

/-! ## Arrays and objects -/

/-- What stands behind the first item of an array, its bracket included. -/
def itemsRest (items : List Json) (r : List Char) : List Char :=
  match items with
  | [] => ']' :: r
  | j :: rest => ',' :: (compactItems (j :: rest) ++ ']' :: r)

/-- What stands behind the first field of an object, its bracket included. -/
def fieldsRest (fields : List (String × Json)) (r : List Char) : List Char :=
  match fields with
  | [] => '\x7d' :: r
  | f :: rest => ',' :: (compactFields (f :: rest) ++ '\x7d' :: r)

theorem compactItems_append (j : Json) (items : List Json) (r : List Char) :
    compactItems (j :: items) ++ ']' :: r = j.compact ++ itemsRest items r := by
  cases items with
  | nil => rw [compactItems, itemsRest]
  | cons i rest =>
    rw [compactItems, itemsRest, List.append_assoc, List.cons_append]
    exact nofun

theorem compactFields_append (n : String) (j : Json) (fields : List (String × Json))
    (r : List Char) :
    compactFields ((n, j) :: fields) ++ '\x7d' :: r
      = quoted n ++ ':' :: (j.compact ++ fieldsRest fields r) := by
  cases fields with
  | nil => rw [compactFields, fieldsRest, List.append_assoc, List.cons_append]
  | cons f rest =>
    rw [compactFields, fieldsRest]
    · simp only [List.append_assoc, List.cons_append]
    · exact nofun

theorem endsWord_itemsRest (items : List Json) (r : List Char) : EndsWord (itemsRest items r) := by
  cases items <;> exact .cons rfl _

theorem endsWord_fieldsRest (fields : List (String × Json)) (r : List Char) :
    EndsWord (fieldsRest fields r) := by
  cases fields <;> exact .cons rfl _

mutual
/-- A written value says where it ends and what it is. -/
theorem eq_of_compact_append (i j : Json) {r s : List Char} (hr : EndsWord r) (hs : EndsWord s)
    (h : i.compact ++ r = j.compact ++ s) : i = j ∧ r = s := by
  have hmark := mark?_eq h
  match i, j, h, hmark with
  | .null, j, h, _ => exact eq_of_word_append rfl hr hs h
  | .bool true, j, h, _ => exact eq_of_word_append rfl hr hs h
  | .bool false, j, h, _ => exact eq_of_word_append rfl hr hs h
  | .number _, j, h, _ => exact eq_of_word_append rfl hr hs h
  | .string x, .string y, h, _ =>
    rw [compact, compact] at h
    obtain ⟨rfl, hrest⟩ := eq_of_quoted_append h
    exact ⟨rfl, hrest⟩
  | .array is, .array js, h, _ =>
    rw [compact, compact, List.cons_append, List.cons_append, List.append_assoc,
      List.append_assoc] at h
    obtain ⟨rfl, hrest⟩ := eq_of_compactItems_append is js (List.cons.inj h).2
    exact ⟨rfl, hrest⟩
  | .object fs, .object gs, h, _ =>
    rw [compact, compact, List.cons_append, List.cons_append, List.append_assoc,
      List.append_assoc] at h
    obtain ⟨rfl, hrest⟩ := eq_of_compactFields_append fs gs (List.cons.inj h).2
    exact ⟨rfl, hrest⟩
/-- So do written items, whose bracket stands behind them. -/
theorem eq_of_compactItems_append (is js : List Json) {r s : List Char}
    (h : compactItems is ++ ']' :: r = compactItems js ++ ']' :: s) : is = js ∧ r = s := by
  match is, js with
  | [], [] => exact ⟨rfl, (List.cons.inj h).2⟩
  | [], j :: js =>
    rw [compactItems_append] at h
    exact absurd h.symm (compact_append_ne _ _ _)
  | i :: is, [] =>
    rw [compactItems_append] at h
    exact absurd h (compact_append_ne _ _ _)
  | i :: is, j :: js =>
    rw [compactItems_append, compactItems_append] at h
    obtain ⟨rfl, hrest⟩ :=
      eq_of_compact_append i j (endsWord_itemsRest is r) (endsWord_itemsRest js s) h
    match is, js, hrest with
    | [], [], hrest => exact ⟨rfl, (List.cons.inj hrest).2⟩
    | [], _ :: _, hrest => exact absurd (List.cons.inj hrest).1 (by decide)
    | _ :: _, [], hrest => exact absurd (List.cons.inj hrest).1 (by decide)
    | i' :: is, j' :: js, hrest =>
      obtain ⟨hitems, hrest⟩ :=
        eq_of_compactItems_append (i' :: is) (j' :: js) (List.cons.inj hrest).2
      exact ⟨congrArg _ hitems, hrest⟩
/-- So do written fields. -/
theorem eq_of_compactFields_append (fs gs : List (String × Json)) {r s : List Char}
    (h : compactFields fs ++ '\x7d' :: r = compactFields gs ++ '\x7d' :: s) : fs = gs ∧ r = s := by
  match fs, gs with
  | [], [] => exact ⟨rfl, (List.cons.inj h).2⟩
  | [], (m, j) :: gs =>
    rw [compactFields_append] at h
    exact absurd (List.cons.inj h).1 (by decide)
  | (n, i) :: fs, [] =>
    rw [compactFields_append] at h
    exact absurd (List.cons.inj h).1 (by decide)
  | (n, i) :: fs, (m, j) :: gs =>
    rw [compactFields_append, compactFields_append] at h
    obtain ⟨rfl, hvalue⟩ := eq_of_quoted_append h
    obtain ⟨rfl, hrest⟩ :=
      eq_of_compact_append i j (endsWord_fieldsRest fs r) (endsWord_fieldsRest gs s)
      (List.cons.inj hvalue).2
    match fs, gs, hrest with
    | [], [], hrest => exact ⟨rfl, (List.cons.inj hrest).2⟩
    | [], _ :: _, hrest => exact absurd (List.cons.inj hrest).1 (by decide)
    | _ :: _, [], hrest => exact absurd (List.cons.inj hrest).1 (by decide)
    | f :: fs, g :: gs, hrest =>
      obtain ⟨hfields, hrest⟩ :=
        eq_of_compactFields_append (f :: fs) (g :: gs) (List.cons.inj hrest).2
      exact ⟨congrArg _ hfields, hrest⟩
end

theorem toText_injective {i j : Json} (h : i.toText = j.toText) : i = j := by
  have hchars := String.ofList_injective h
  refine (eq_of_compact_append i j (r := []) (s := []) nofun nofun ?_).1
  rw [hchars]

theorem canonicalItems_strings (ss : List String) :
    canonicalItems (ss.map .string) = ss.map .string := by
  induction ss with
  | nil => rw [List.map_nil, canonicalItems]
  | cons s ss ih =>
    rw [List.map_cons, canonicalItems, ih, canonical]
    all_goals exact fun _ h ↦ nomatch h

end Json

/-- Rows are kept under one text exactly when their keys agree. -/
theorem Database.keyText_eq_iff {a b : List Json} :
    keyText a = keyText b ↔ Json.canonicalItems a = Json.canonicalItems b := by
  rw [keyText, keyText, Json.canonical, Json.canonical]
  constructor
  · exact fun h ↦ Json.array.inj (Json.toText_injective h)
  · exact fun h ↦ by rw [h]

/-- Keys of strings have texts of their own. -/
theorem Database.keyText_strings_injective {ss ts : List String}
    (h : keyText (ss.map .string) = keyText (ts.map .string)) : ss = ts := by
  rw [keyText_eq_iff, Json.canonicalItems_strings, Json.canonicalItems_strings] at h
  exact List.map_injective_iff.2 (fun _ _ ↦ Json.string.inj) h

end SchemaLedger
