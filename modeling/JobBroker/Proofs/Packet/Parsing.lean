import JobBroker.Packet.Header
import JobBroker.Proofs.Packet.Lexing
import Mathlib.Data.List.TakeDrop

/-! Reading a header that the lexer has read, in capitals: its items are found again, each with its
key and value, and the header is refused exactly if an element is empty. -/
namespace JobBroker

namespace Value

def isInline : Value → Bool
  | scalar text => text.toList.all isTokenChar
  | array elements => elements.all fun text => text.toList.all isTokenChar

theorem isWritable_array (elements : List String) :
    (array elements).isWritable =
      ((array elements).isInline && elements.all fun text => !text.isEmpty) := by
  induction elements with
  | nil => rfl
  | cons text elements ih =>
    simp only [isWritable, isInline, List.all_cons] at ih ⊢
    rw [ih]
    simp only [Bool.and_left_comm, Bool.and_comm, Bool.and_assoc]

/-- A value as the lexer reads it. It lets empty elements pass, but between the brackets of an array
with a single one there is nothing, as there is if it has none. -/
structure Plain (v : Value) : Prop where
  inline : v.isInline = true
  spoken : v ≠ .array [""]

theorem Plain.of_writable {v : Value} (h : v.isWritable = true) : v.Plain := by
  cases v with
  | scalar text => exact ⟨h, nofun⟩
  | array elements =>
    rw [isWritable_array, Bool.and_eq_true] at h
    refine ⟨h.1, ?_⟩
    rintro hlone
    cases hlone
    exact absurd h.2 (by decide)

end Value

def Value.upper : Value → Value
  | scalar text => scalar (text.map Char.toUpper)
  | array elements => array (elements.map fun text => text.map Char.toUpper)

def Arguments.putAll (args : Arguments) (kvs : List (Key × Value)) : Arguments :=
  kvs.foldl (fun args kv => args.put kv.1 (some kv.2)) args

namespace Header

theorem splitOn_eq (sep : Char) (cs : List Char) : Text.splitOn sep cs = cs.splitOn sep := by
  induction cs with
  | nil => rfl
  | cons c cs ih =>
    rw [List.splitOn_cons_eq_if_modifyHead, ← ih, Text.splitOn, List.foldr_cons, ← Text.splitOn]
    by_cases h : c = sep
    · simp [h]
    · have hne : Text.splitOn sep cs ≠ [] := by
        rw [ih]
        exact List.splitOn_ne_nil sep cs
      cases hpieces : Text.splitOn sep cs with
      | nil => exact absurd hpieces hne
      | cons piece pieces => simp [h]

theorem itemsFrom_plain {depth : Nat} {cs : List Char}
    (h : ∀ c ∈ cs, c ≠ '[' ∧ c ≠ ']' ∧ (c = ',' → depth ≠ 0)) (item : List Char)
    (done : List (List Char)) (rest : List Char) :
    itemsFrom depth item done (cs ++ rest) = itemsFrom depth (cs.reverse ++ item) done rest := by
  induction cs generalizing item with
  | nil => rfl
  | cons c cs ih =>
    obtain ⟨hopen, hclose, hcomma⟩ := h c (List.mem_cons_self ..)
    have hstep : itemsFrom depth item done (c :: (cs ++ rest)) =
        itemsFrom depth (c :: item) done (cs ++ rest) := by
      -- A comma cuts at depth zero only.
      by_cases hc : c = ','
      · subst hc
        rw [itemsFrom, if_neg (hcomma rfl)]
      · rw [itemsFrom] <;> assumption
    rw [List.cons_append, hstep, ih fun c hc => h c (List.mem_cons_of_mem _ hc)]
    simp

theorem plain_of_token {cs : List Char} (h : cs.all isTokenChar = true) (depth : Nat) :
    ∀ c ∈ cs, c ≠ '[' ∧ c ≠ ']' ∧ (c = ',' → depth ≠ 0) := by
  intro c hc
  obtain ⟨hcomma, -, hopen, hclose, -⟩ := (Lex.isTokenChar_iff c).1 (List.all_eq_true.1 h c hc)
  exact ⟨hopen, hclose, fun h => absurd h hcomma⟩

theorem element_inline {elements : List String} (h : (Value.array elements).isInline = true)
    {text : String} (hmem : text ∈ elements) : text.toList.all isTokenChar = true :=
  List.all_eq_true.1 h text hmem

theorem itemsFrom_text {v : Value} (h : v.isInline = true) (item : List Char)
    (done : List (List Char)) (rest : List Char) :
    itemsFrom 0 item done (v.text ++ rest) = itemsFrom 0 (v.text.reverse ++ item) done rest := by
  cases v with
  | scalar text => exact itemsFrom_plain (plain_of_token h 0) item done rest
  | array elements =>
    have hinner : ∀ c ∈ List.intercalate [','] (elements.map String.toList),
        c ≠ '[' ∧ c ≠ ']' ∧ (c = ',' → 1 ≠ 0) := by
      intro c hc
      obtain rfl | ⟨piece, hpiece, hc⟩ := Lex.mem_intercalate_comma hc
      · exact ⟨by decide, by decide, fun _ => Nat.one_ne_zero⟩
      · obtain ⟨text, htext, rfl⟩ := List.mem_map.1 hpiece
        exact plain_of_token (element_inline h htext) 1 c hc
    have hsplit : (Value.array elements).text ++ rest =
        '[' :: (List.intercalate [','] (elements.map String.toList) ++ ']' :: rest) := by
      simp [Value.text]
    rw [hsplit, itemsFrom, itemsFrom_plain hinner, itemsFrom]
    simp [Value.text]

theorem itemsFrom_item {kv : Key × Value} (h : kv.2.isInline = true) (item : List Char)
    (done : List (List Char)) (rest : List Char) :
    itemsFrom 0 item done (Packet.item kv ++ rest) =
      itemsFrom 0 ((Packet.item kv).reverse ++ item) done rest := by
  have hname : ∀ c ∈ kv.1.name.toList ++ [':'], c ≠ '[' ∧ c ≠ ']' ∧ (c = ',' → 0 ≠ 0) := by
    intro c hc
    obtain hc | hc := List.mem_append.1 hc
    · exact plain_of_token (Lex.name_token kv.1).1 0 c hc
    · rw [List.mem_singleton.1 hc]
      decide
  have hsplit : Packet.item kv = (kv.1.name.toList ++ [':']) ++ kv.2.text := by
    simp [Packet.item]
  rw [hsplit, List.append_assoc, itemsFrom_plain hname, itemsFrom_text h]
  simp only [List.reverse_append, List.append_assoc]

theorem items_inline {kvs : List (Key × Value)} (hne : kvs ≠ [])
    (h : ∀ kv ∈ kvs, kv.2.isInline = true) (done : List (List Char)) :
    itemsFrom 0 [] done (List.intercalate [','] (kvs.map Packet.item)) =
      done.reverse ++ kvs.map Packet.item := by
  induction kvs generalizing done with
  | nil => exact absurd rfl hne
  | cons kv kvs ih =>
    have hitem := itemsFrom_item (h kv (List.mem_cons_self ..)) [] done
    cases kvs with
    | nil =>
      have hlast := hitem []
      simp only [List.append_nil] at hlast
      simp [hlast, itemsFrom]
    | cons kv' kvs =>
      have hrest := ih (List.cons_ne_nil _ _) (fun kv hkv => h kv (List.mem_cons_of_mem _ hkv))
        (Packet.item kv :: done)
      rw [List.map_cons] at hrest
      rw [List.map_cons, List.map_cons, List.intercalate_cons_cons, List.append_assoc, hitem,
        List.singleton_append, itemsFrom, if_pos rfl, List.append_nil, List.reverse_reverse, hrest]
      simp

theorem value_text {v : Value} (h : v.Plain) :
    value v.text = if v.isWritable then .ok v else .error (.headerSyntax comma) := by
  cases v with
  | scalar text =>
    have hwritable : (Value.scalar text).isWritable = true := h.inline
    have hplain : bracketed? text.toList = none := by
      cases hcs : text.toList with
      | nil => rfl
      | cons c cs =>
        have hc := (plain_of_token h.inline 0 c (by rw [hcs]; exact List.mem_cons_self ..)).1
        unfold bracketed?
        split
        · rename_i heq
          exact absurd (List.cons.inj heq).1 hc
        · rfl
    rw [value, Value.text, hplain, if_pos hwritable, String.ofList_toList]
  | array elements =>
    have hbracketed : bracketed? (Value.array elements).text =
        some (List.intercalate [','] (elements.map String.toList)) := by
      simp [bracketed?, Value.text]
    rw [value, hbracketed]
    cases elements with
    | nil => rfl
    | cons first elements =>
      have hcomma : ∀ piece ∈ (first :: elements).map String.toList, ',' ∉ piece := by
        intro piece hpiece hmem
        obtain ⟨text, htext, rfl⟩ := List.mem_map.1 hpiece
        exact (plain_of_token (element_inline h.inline htext) 0 ',' hmem).2.2 rfl rfl
      have hsplit := List.splitOn_intercalate ',' hcomma (List.cons_ne_nil _ _)
      have hempty : ((first :: elements).map String.toList).any List.isEmpty =
          !(first :: elements).all fun text => !text.isEmpty := by
        rw [List.any_map, List.not_all_eq_any_not]
        congr
        funext text
        rw [Bool.not_not, Bool.eq_iff_iff, Function.comp_apply, List.isEmpty_iff,
          String.isEmpty_iff, ← String.toList_inj]
        rfl
      cases hinner : List.intercalate [','] ((first :: elements).map String.toList) with
      | nil =>
        -- Nothing is between the brackets of an array with one empty element only.
        rw [hinner, List.splitOn_nil, List.map_cons] at hsplit
        obtain ⟨hfirst, hrest⟩ := List.cons.inj hsplit
        have hempty : first = "" := String.toList_inj.1 hfirst.symm
        rw [hempty, List.map_eq_nil_iff.1 hrest.symm] at h
        exact absurd rfl h.spoken
      | cons c cs =>
        have hback : ((first :: elements).map String.toList).map String.ofList =
            first :: elements := by
          simp
        rw [hinner] at hsplit
        simp only [splitOn_eq, hsplit, hempty, hback, Value.isWritable_array, h.inline,
          Bool.true_and]
        cases (first :: elements).all fun text => !text.isEmpty <;> rfl

theorem span_item (kv : Key × Value) :
    (Packet.item kv).span (· ≠ ':') = (kv.1.name.toList, ':' :: kv.2.text) := by
  have hname : ∀ c ∈ kv.1.name.toList, decide (c ≠ ':') = true := by
    intro c hc
    have htoken := List.all_eq_true.1 (Lex.name_token kv.1).1 c hc
    exact decide_eq_true ((Lex.isTokenChar_iff c).1 htoken).2.1
  rw [List.span_eq_takeWhile_dropWhile, Packet.item, List.takeWhile_append_of_pos hname,
    List.dropWhile_append_of_pos hname]
  simp

theorem ofToken?_name (k : Key) : Key.ofToken? k.name.toList = some k :=
  Lex.ofToken?_eq (by cases k <;> decide)

theorem item_text {kv : Key × Value} (h : kv.2.Plain) :
    item (Packet.item kv) =
      if kv.2.isWritable then .ok kv else .error (.headerSyntax comma) := by
  rw [item, span_item]
  simp only [ofToken?_name, value_text h]
  split <;> rfl

theorem collect_text {kvs : List (Key × Value)} (h : ∀ kv ∈ kvs, kv.2.Plain) (args : Arguments) :
    collect args (kvs.map Packet.item) =
      if kvs.all fun kv => kv.2.isWritable then .ok (args.putAll kvs)
      else .error (.headerSyntax comma) := by
  induction kvs generalizing args with
  | nil => rfl
  | cons kv kvs ih =>
    have hrest := ih fun kv hkv => h kv (List.mem_cons_of_mem _ hkv)
    rw [List.map_cons, collect, item_text (h kv (List.mem_cons_self ..)), List.all_cons]
    cases hwritable : kv.2.isWritable with
    | true => exact hrest _
    | false => rfl

theorem parse_text {kvs : List (Key × Value)} (h : ∀ kv ∈ kvs, kv.2.Plain) :
    parse (List.intercalate [','] (kvs.map Packet.item)) =
      if kvs.all fun kv => kv.2.isWritable then .ok (Arguments.putAll {} kvs)
      else .error (.headerSyntax comma) := by
  cases kvs with
  | nil => rfl
  | cons kv kvs =>
    have hitems := items_inline (List.cons_ne_nil kv kvs) (fun kv hkv => (h kv hkv).inline) []
    have hne : List.intercalate [','] ((kv :: kvs).map Packet.item) ≠ [] := by
      intro hnil
      rw [hnil, List.map_cons] at hitems
      have hitem := (List.cons.inj hitems).1
      simp [Packet.item] at hitem
    rw [parse, if_neg (by simpa using hne), items, hitems]
    exact collect_text h {}

theorem parse_written {kvs : List (Key × Value)} (h : ∀ kv ∈ kvs, kv.2.isWritable = true) :
    parse (List.intercalate [','] (kvs.map Packet.item)) = .ok (Arguments.putAll {} kvs) := by
  rw [parse_text fun kv hkv => .of_writable (h kv hkv), if_pos (List.all_eq_true.2 h)]

end Header
end JobBroker
