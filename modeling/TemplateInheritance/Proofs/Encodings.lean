import TemplateInheritance.Context.Digest
import TemplateInheritance.Proofs.Keys
import TemplateInheritance.Proofs.Numerals

/-!
# Digest encodings of contexts

The canonical text of a value ends where the value ends: what follows it is never taken for a part
of it, in whatever legible form its numbers are written. So names and values are found again in the
encoding under the full digest, whatever they hold, and no two contexts are hashed from the same
bytes.
-/

namespace TemplateInheritance

open Value.Reader

private theorem hexValue?_hexDigit (n : Nat) : hexValue? (hexDigit n) = some (n % 16) := by
  have hdigit : ∀ n < 16, hexValue? (Nat.digitChar n) = some n := by decide
  exact hdigit (n % 16) (Nat.mod_lt _ (by decide))

/-- A character stands for itself, or for an escape that reads back. -/
private theorem escapeChar_cases (c : Char) :
    (escapeChar c = [c] ∧ c ≠ '"' ∧ c ≠ '\\') ∨
      ∃ code, escapeChar c = '\\' :: code ∧ ∀ rest, escaped? (code ++ rest) = some (c, rest) := by
  by_cases hletter : c ∈ ['"', '\\', '\x08', '\x0c', '\n', '\r', '\t']
  · -- these seven have an escape of one letter, which is read back by its own case
    right
    simp only [List.mem_cons, List.not_mem_nil, or_false] at hletter
    rcases hletter with rfl | rfl | rfl | rfl | rfl | rfl | rfl <;> exact ⟨_, rfl, fun _ ↦ rfl⟩
  · simp only [List.mem_cons, List.not_mem_nil, or_false, not_or] at hletter
    obtain ⟨hquote, hslash, hothers⟩ := hletter
    by_cases hcontrol : c.toNat < 32
    · right
      have hwritten : escapeChar c =
          ['\\', 'u', '0', '0', hexDigit (c.toNat / 16), hexDigit c.toNat] := by
        simp only [escapeChar, hquote, hslash, hothers, hcontrol, if_false, if_true]
      refine ⟨_, hwritten, fun rest ↦ ?_⟩
      have hzero : hexValue? '0' = some 0 := by decide
      have hsum : c.toNat / 16 % 16 * 16 + c.toNat % 16 = c.toNat := by omega
      have hfirst : ¬(0xD800 ≤ c.toNat ∧ c.toNat < 0xDC00) := by omega
      have hsecond : ¬(0xDC00 ≤ c.toNat ∧ c.toNat < 0xE000) := by omega
      simp [escaped?, escapedUnit?, unit?, hzero, hexValue?_hexDigit, hsum, hfirst, hsecond]
    · left
      refine ⟨?_, hquote, hslash⟩
      simp only [escapeChar, hquote, hslash, hothers, hcontrol, if_false]

/-- No character is written with a quote in front. -/
private theorem escapeChar_append_ne_quote (c : Char) (r s : List Char) :
    escapeChar c ++ r ≠ '"' :: s := by
  rcases escapeChar_cases c with ⟨hself, hquote, -⟩ | ⟨code, hcode, -⟩
  · simp [hself, hquote]
  · simp [hcode]

/-- A character is found again in front of any text. -/
private theorem eq_of_escapeChar_append {a b : Char} {r s : List Char}
    (heq : escapeChar a ++ r = escapeChar b ++ s) : a = b ∧ r = s := by
  rcases escapeChar_cases a with ⟨ha, -, hslash⟩ | ⟨code, ha, hread⟩
  · rcases escapeChar_cases b with ⟨hb, -, -⟩ | ⟨code', hb, -⟩
    · simpa [ha, hb] using heq
    · rw [ha, hb] at heq
      exact absurd (List.cons.inj heq).1 hslash
  · rcases escapeChar_cases b with ⟨hb, -, hslash⟩ | ⟨code', hb, hread'⟩
    · rw [ha, hb] at heq
      exact absurd (List.cons.inj heq).1.symm hslash
    · rw [ha, hb] at heq
      have hcodes : code ++ r = code' ++ s := (List.cons.inj heq).2
      have hboth : some (a, r) = some (b, s) := by
        rw [← hread r, hcodes, hread' s]
      exact Prod.mk.inj (Option.some.inj hboth)

private theorem eq_of_escaped_append {as bs r s : List Char}
    (heq : as.flatMap escapeChar ++ '"' :: r = bs.flatMap escapeChar ++ '"' :: s) :
    as = bs ∧ r = s := by
  induction as generalizing bs with
  | nil =>
    cases bs with
    | nil => exact ⟨rfl, (List.cons.inj heq).2⟩
    | cons b bs =>
      rw [List.flatMap_cons, List.append_assoc] at heq
      exact absurd heq.symm (escapeChar_append_ne_quote b _ _)
  | cons a as ih =>
    rw [List.flatMap_cons, List.append_assoc] at heq
    cases bs with
    | nil => exact absurd heq (escapeChar_append_ne_quote a _ _)
    | cons b bs =>
      rw [List.flatMap_cons, List.append_assoc] at heq
      obtain ⟨rfl, hrest⟩ := eq_of_escapeChar_append heq
      obtain ⟨rfl, htail⟩ := ih hrest
      exact ⟨rfl, htail⟩

private theorem toList_quoted (s : String) :
    (quoted s).toList = '"' :: (s.toList.flatMap escapeChar ++ ['"']) := by
  simp [quoted]

/-- A string between quotes is found again in front of any text. -/
theorem eq_of_quoted_append {a b : String} {r s : List Char}
    (heq : (quoted a).toList ++ r = (quoted b).toList ++ s) : a = b ∧ r = s := by
  simp only [toList_quoted, List.cons_append, List.append_assoc, List.nil_append] at heq
  obtain ⟨hchars, hrest⟩ := eq_of_escaped_append (List.cons.inj heq).2
  exact ⟨String.toList_inj.1 hchars, hrest⟩

/-- What is written for `a` is told from what is written for anything else, wherever the text
breaks off behind both. -/
def Decodes {α : Type} (write : α → List Char) (a : α) : Prop :=
  ∀ {b : α} {r s : List Char}, Breaks r → Breaks s → write a ++ r = write b ++ s → a = b ∧ r = s

section Sequences

variable {α : Type} {write : α → List Char} {close : Char} {as bs : List α} {r s : List Char}

private theorem breaks_cons {c : Char} (hc : isNumeral c = false) (rest : List Char) :
    Breaks (c :: rest) := by
  simpa [Breaks] using hc

private theorem breaks_tail (hclose : isNumeral close = false) (as : List α) (r : List Char) :
    Breaks (as.flatMap (fun a ↦ ',' :: write a) ++ close :: r) := by
  cases as with
  | nil => exact breaks_cons hclose r
  | cons a as => exact breaks_cons (by decide) _

/-- Items behind commas are found again up to the closing character. -/
private theorem eq_of_tail_append (hclose : isNumeral close = false) (hcomma : close ≠ ',')
    (has : ∀ a ∈ as, Decodes write a)
    (heq : as.flatMap (fun a ↦ ',' :: write a) ++ close :: r =
      bs.flatMap (fun b ↦ ',' :: write b) ++ close :: s) : as = bs ∧ r = s := by
  induction as generalizing bs with
  | nil =>
    cases bs with
    | nil => exact ⟨rfl, (List.cons.inj heq).2⟩
    | cons b bs => exact absurd (List.cons.inj heq).1 hcomma
  | cons a as ih =>
    cases bs with
    | nil => exact absurd (List.cons.inj heq).1.symm hcomma
    | cons b bs =>
      simp only [List.flatMap_cons, List.cons_append, List.append_assoc] at heq
      obtain ⟨rfl, hrest⟩ := has a (.head _) (breaks_tail hclose as r) (breaks_tail hclose bs s)
        (List.cons.inj heq).2
      obtain ⟨rfl, htail⟩ := ih (fun a hmem ↦ has a (.tail _ hmem)) hrest
      exact ⟨rfl, htail⟩

private theorem intercalate_cons (a : α) (as : List α) :
    [','].intercalate ((a :: as).map write) = write a ++ as.flatMap fun a ↦ ',' :: write a := by
  induction as generalizing a with
  | nil => simp
  | cons b bs ih =>
    rw [List.map_cons, List.map_cons, List.intercalate_cons_cons, ← List.map_cons, ih]
    simp

/-- Items between commas are found again up to the closing character, which begins no item. -/
private theorem eq_of_items_append (hclose : isNumeral close = false) (hcomma : close ≠ ',')
    (hbegin : ∀ a r s, write a ++ r ≠ close :: s) (has : ∀ a ∈ as, Decodes write a)
    (heq : [','].intercalate (as.map write) ++ close :: r =
      [','].intercalate (bs.map write) ++ close :: s) : as = bs ∧ r = s := by
  cases as with
  | nil =>
    cases bs with
    | nil => exact ⟨rfl, (List.cons.inj heq).2⟩
    | cons b bs =>
      rw [intercalate_cons, List.append_assoc] at heq
      exact absurd heq.symm (hbegin b _ _)
  | cons a as =>
    rw [intercalate_cons, List.append_assoc] at heq
    cases bs with
    | nil => exact absurd heq (hbegin a _ _)
    | cons b bs =>
      rw [intercalate_cons, List.append_assoc] at heq
      obtain ⟨rfl, hrest⟩ := has a (.head _) (breaks_tail hclose as r) (breaks_tail hclose bs s) heq
      obtain ⟨rfl, htail⟩ :=
        eq_of_tail_append hclose hcomma (fun a hmem ↦ has a (.tail _ hmem)) hrest
      exact ⟨rfl, htail⟩

/-- Items that a semicolon ends are found again up to the end. -/
private theorem eq_of_terminated (has : ∀ a, Decodes write a)
    (heq : as.flatMap (fun a ↦ write a ++ [';']) = bs.flatMap fun b ↦ write b ++ [';']) :
    as = bs := by
  induction as generalizing bs with
  | nil =>
    cases bs with
    | nil => rfl
    | cons b bs => simp at heq
  | cons a as ih =>
    cases bs with
    | nil => simp at heq
    | cons b bs =>
      simp only [List.flatMap_cons, List.append_assoc] at heq
      obtain ⟨rfl, hrest⟩ := has a (breaks_cons (by decide) _) (breaks_cons (by decide) _) heq
      rw [ih (List.cons.inj hrest).2]

end Sequences

namespace Value

/-- The kind of the values whose texts begin with a character. -/
def kindOfInitial? (c : Char) : Option String :=
  if isNumeral c then some "number" else
    match c with
    | 'n' => some "null"
    | 't' => some "bool"
    | 'f' => some "bool"
    | '"' => some "string"
    | '[' => some "array"
    | '\x7b' => some "object"
    | _ => none

/-- A field of an object as its text has it. -/
def fieldText (print : Number → String) (field : String × Value) : List Char :=
  (quoted field.1).toList ++ ':' :: (field.2.textWith print).toList

variable {print : Number → String}

private theorem itemTexts_eq_map (items : List Value) :
    itemTexts print items = items.map (textWith print) := by
  induction items with
  | nil => rfl
  | cons item rest ih => rw [itemTexts, ih, List.map_cons]

private theorem toList_fieldTexts (fields : List (String × Value)) :
    (fieldTexts print fields).map String.toList = fields.map (fieldText print) := by
  induction fields with
  | nil => rfl
  | cons field rest ih =>
    obtain ⟨name, value⟩ := field
    simp [fieldTexts, fieldText, ih]

private theorem toList_array (items : List Value) (r : List Char) :
    ((array items).textWith print).toList ++ r =
      '[' :: ([','].intercalate (items.map fun item ↦ (item.textWith print).toList) ++
        ']' :: r) := by
  simp [textWith, itemTexts_eq_map, String.toList_intercalate, Function.comp_def]

private theorem toList_object (fields : List (String × Value)) (r : List Char) :
    ((object fields).textWith print).toList ++ r =
      '\x7b' :: ([','].intercalate (fields.map (fieldText print)) ++ '\x7d' :: r) := by
  simp [textWith, toList_fieldTexts, String.toList_intercalate]

/-- The first character of a text tells the kind of the value. -/
private theorem exists_initial (hprint : Number.Legible print) (v : Value) :
    ∃ c rest, (v.textWith print).toList = c :: rest ∧ kindOfInitial? c = some v.kindName := by
  cases v with
  | null => exact ⟨'n', "ull".toList, by simp [textWith], by decide⟩
  | bool value =>
    cases value
    · exact ⟨'f', "alse".toList, by simp [textWith], by decide⟩
    · exact ⟨'t', "rue".toList, by simp [textWith], by decide⟩
  | number value =>
    obtain ⟨c, rest, htext⟩ := List.exists_cons_of_ne_nil (hprint.ne_nil value)
    have hnumeral : isNumeral c := hprint.isNumeral value c (htext ▸ .head _)
    exact ⟨c, rest, htext, if_pos hnumeral⟩
  | string value =>
    exact ⟨'"', _, toList_quoted value, rfl⟩
  | array items =>
    exact ⟨'[', _, by simpa using toList_array items [], rfl⟩
  | object fields =>
    exact ⟨'\x7b', _, by simpa using toList_object fields [], rfl⟩

/-- Values whose texts begin one text are of one kind. -/
private theorem kindName_eq (hprint : Number.Legible print) {v w : Value} {r s : List Char}
    (heq : (v.textWith print).toList ++ r = (w.textWith print).toList ++ s) :
    v.kindName = w.kindName := by
  obtain ⟨c, rest, hv, hkind⟩ := exists_initial hprint v
  obtain ⟨c', rest', hw, hkind'⟩ := exists_initial hprint w
  rw [hv, hw] at heq
  have hinitial : c = c' := (List.cons.inj heq).1
  rw [hinitial, hkind'] at hkind
  exact (Option.some.inj hkind).symm

/-- The text of a value does not begin with a closing bracket. -/
private theorem textWith_append_ne_bracket (hprint : Number.Legible print) (v : Value)
    (r s : List Char) : (v.textWith print).toList ++ r ≠ ']' :: s := by
  intro heq
  obtain ⟨c, rest, hv, hkind⟩ := exists_initial hprint v
  rw [hv] at heq
  rw [(List.cons.inj heq).1] at hkind
  exact absurd hkind (by simp [kindOfInitial?, isNumeral])

private theorem fieldText_append_ne_brace (field : String × Value) (r s : List Char) :
    fieldText print field ++ r ≠ '\x7d' :: s := by
  simp [fieldText, toList_quoted]

/-- A field is found again where its value is. -/
private theorem decodes_fieldText {field : String × Value}
    (hvalue : Decodes (fun v ↦ (textWith print v).toList) field.2) :
    Decodes (fieldText print) field := by
  intro other r s hr hs heq
  simp only [fieldText, List.append_assoc, List.cons_append] at heq
  obtain ⟨hname, hrest⟩ := eq_of_quoted_append heq
  obtain ⟨hvalues, htail⟩ := hvalue hr hs (List.cons.inj hrest).2
  exact ⟨Prod.ext hname hvalues, htail⟩

mutual

/-- A value is found again from its text, whatever strings and names it holds and however deeply
it nests, if its numbers are written legibly. -/
theorem decodes_textWith (hprint : Number.Legible print) (v : Value) :
    Decodes (fun v ↦ (textWith print v).toList) v := by
  intro w r s hr hs heq
  have hkind := kindName_eq hprint heq
  cases v with
  | null =>
    cases w with
    | null => exact ⟨rfl, List.append_cancel_left heq⟩
    | _ => simp [kindName] at hkind
  | bool a =>
    cases w with
    | bool b =>
      cases a <;> cases b
      · exact ⟨rfl, List.append_cancel_left heq⟩
      · simp [textWith] at heq
      · simp [textWith] at heq
      · exact ⟨rfl, List.append_cancel_left heq⟩
    | _ => simp [kindName] at hkind
  | number a =>
    cases w with
    | number b =>
      obtain ⟨rfl, hrest⟩ := hprint.eq_of_append hr hs heq
      exact ⟨rfl, hrest⟩
    | _ => simp [kindName] at hkind
  | string a =>
    cases w with
    | string b =>
      obtain ⟨rfl, hrest⟩ := eq_of_quoted_append heq
      exact ⟨rfl, hrest⟩
    | _ => simp [kindName] at hkind
  | array as =>
    cases w with
    | array bs =>
      simp only [toList_array] at heq
      obtain ⟨rfl, hrest⟩ := eq_of_items_append (by decide) (by decide)
        (textWith_append_ne_bracket hprint) (decodes_items hprint as) (List.cons.inj heq).2
      exact ⟨rfl, hrest⟩
    | _ => simp [kindName] at hkind
  | object as =>
    cases w with
    | object bs =>
      simp only [toList_object] at heq
      obtain ⟨rfl, hrest⟩ := eq_of_items_append (by decide) (by decide) fieldText_append_ne_brace
        (decodes_fields hprint as) (List.cons.inj heq).2
      exact ⟨rfl, hrest⟩
    | _ => simp [kindName] at hkind
termination_by structural v

private theorem decodes_items (hprint : Number.Legible print) (items : List Value) :
    ∀ item ∈ items, Decodes (fun v ↦ (textWith print v).toList) item := by
  match items with
  | [] => simp
  | item :: rest =>
    intro other hmem
    cases hmem with
    | head => exact decodes_textWith hprint item
    | tail _ hmem => exact decodes_items hprint rest other hmem
termination_by structural items

private theorem decodes_fields (hprint : Number.Legible print)
    (fields : List (String × Value)) : ∀ field ∈ fields, Decodes (fieldText print) field := by
  match fields with
  | [] => simp
  | (name, value) :: rest =>
    intro other hmem
    cases hmem with
    | head =>
      have hvalue : Decodes (fun v ↦ (textWith print v).toList) value :=
        decodes_textWith hprint value
      exact @decodes_fieldText print (name, value) hvalue
    | tail _ hmem => exact decodes_fields hprint rest other hmem
termination_by structural fields

end

end Value

private theorem toList_loop (bytes : ByteArray) (i : Nat) (read : List UInt8) :
    ByteArray.toList.loop bytes i read = read.reverse ++ bytes.data.toList.drop i := by
  fun_induction ByteArray.toList.loop bytes i read with
  | case1 i read hi ih =>
    have hlength : i < bytes.data.toList.length := hi
    have hbyte : bytes.get! i = bytes.data.toList[i] := by
      rw [Array.getElem_toList]
      exact getElem!_pos bytes.data i hi
    rw [ih, List.drop_eq_getElem_cons hlength, hbyte]
    simp
  | case2 i read hi =>
    have hlength : bytes.data.toList.length ≤ i := Nat.not_lt.1 hi
    rw [List.drop_eq_nil_of_le hlength, List.append_nil]

private theorem toList_bytes_inj {a b : ByteArray} : a.toList = b.toList ↔ a = b := by
  constructor
  · intro heq
    simp only [ByteArray.toList, toList_loop] at heq
    exact ByteArray.ext (Array.toList_inj.1 (by simpa using heq))
  · rintro rfl
    rfl

namespace Context

/-- With quoted names the bindings are listed as fields, each with a semicolon behind it. -/
theorem toList_encoding_quoted (print : Number → String) (c : Context) :
    (c.encoding quoted (Value.textWith print)).toList =
      c.entries.flatMap fun binding ↦ Value.fieldText print binding ++ [';'] := by
  simp [encoding, Value.fieldText, List.flatMap_map]

/-- No two contexts have one encoding with quoted names, in whatever legible form the numbers of
their values are written. -/
theorem encoding_quoted_inj {print : Number → String} (hprint : Number.Legible print)
    {a b : Context} :
    a.encoding quoted (Value.textWith print) = b.encoding quoted (Value.textWith print) ↔
      a = b := by
  constructor
  · intro heq
    have hlists := congrArg String.toList heq
    rw [toList_encoding_quoted, toList_encoding_quoted] at hlists
    exact SortedMap.eq_of_entries_eq (eq_of_terminated
      (fun binding ↦ Value.decodes_fieldText (binding.2.decodes_textWith hprint)) hlists)
  · rintro rfl
    rfl

/-- No two contexts have one encoding under the full digest. -/
theorem quotedEncoding_inj {a b : Context} : a.quotedEncoding = b.quotedEncoding ↔ a = b :=
  encoding_quoted_inj Number.legible_text

/-- The digest of a context without bindings is the digest of no message. -/
private theorem emptyDigest_ne_hexDigest (message : List UInt8) :
    emptyDigest ≠ String.ofList (Sha256.hexDigest message) := by
  intro heq
  have hletter : 'm' ∈ (String.ofList (Sha256.hexDigest message)).toList := by
    rw [← heq]
    decide
  rw [String.toList_ofList] at hletter
  exact absurd (Sha256.mem_hexDigest hletter) (by decide)

private theorem fullDigest_of_nil {c : Context} (h : c.entries = []) :
    c.fullDigest = emptyDigest := by
  rw [fullDigest, h]
  rfl

private theorem fullDigest_of_ne_nil {c : Context} (h : c.entries ≠ []) :
    c.fullDigest = String.ofList (Sha256.hexDigest c.quotedEncoding.toUTF8.toList) := by
  rw [fullDigest, if_neg (by simpa using h)]

/-- Contexts are hashed from the same bytes only if they bind the same names to the same values,
and so share a full digest only then or where the hash of different bytes collides. -/
theorem fullDigest_unambiguous (a b : Context) :
    (a.quotedEncoding.toUTF8.toList = b.quotedEncoding.toUTF8.toList ↔
      ∀ name, a.get? name = b.get? name) ∧
    (a.fullDigest = b.fullDigest ↔ (∀ name, a.get? name = b.get? name) ∨
      a.entries ≠ [] ∧ b.entries ≠ [] ∧
        Sha256.hexDigest a.quotedEncoding.toUTF8.toList =
          Sha256.hexDigest b.quotedEncoding.toUTF8.toList) := by
  have hsame : (∀ name, a.get? name = b.get? name) ↔ a = b :=
    ⟨SortedMap.eq_of_get?_eq, fun heq name ↦ heq ▸ rfl⟩
  rw [hsame]
  constructor
  · rw [toList_bytes_inj, String.toUTF8, String.toUTF8, String.toByteArray_inj, quotedEncoding_inj]
  · constructor
    · intro heq
      by_cases ha : a.entries = []
      · by_cases hb : b.entries = []
        · exact .inl (SortedMap.eq_of_entries_eq (ha.trans hb.symm))
        · rw [fullDigest_of_nil ha, fullDigest_of_ne_nil hb] at heq
          exact absurd heq (emptyDigest_ne_hexDigest _)
      · by_cases hb : b.entries = []
        · rw [fullDigest_of_ne_nil ha, fullDigest_of_nil hb] at heq
          exact absurd heq.symm (emptyDigest_ne_hexDigest _)
        · rw [fullDigest_of_ne_nil ha, fullDigest_of_ne_nil hb] at heq
          exact .inr ⟨ha, hb, String.ofList_inj.1 heq⟩
    · rintro (rfl | ⟨ha, hb, heq⟩)
      · rfl
      · rw [fullDigest_of_ne_nil ha, fullDigest_of_ne_nil hb, heq]

/-- Two bindings, and one whose name holds the characters between them: with plain names their
encodings are the same. -/
example :
    let two : Context := .ofList [("a", .number (.integer 1)), ("b", .null)]
    let one : Context := .ofList [("a:1;b", .null)]
    two.plainEncoding = one.plainEncoding ∧ two.quotedEncoding ≠ one.quotedEncoding := by
  decide +kernel

/-- The zeros of the two signs are two values with two texts. -/
example :
    let plus : Context := .ofList [("x", .number (.double .zero))]
    let minus : Context := .ofList [("x", .number (.double ⟨true, 0, -1074, by decide⟩))]
    plus.quotedEncoding ≠ minus.quotedEncoding := by
  decide +kernel

end Context

end TemplateInheritance
