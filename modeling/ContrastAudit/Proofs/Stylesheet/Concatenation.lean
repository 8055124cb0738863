import ContrastAudit.Proofs.Property.Map
import ContrastAudit.Proofs.Stylesheet.Scan
import ContrastAudit.Stylesheet.Parse

/-!
# Style sheets one after the other

Behind a complete block the scanner stands where it started: nothing is held back, no parenthesis
or string is open, and a mark that came before has met its block.  So what follows the block is
read as if it stood alone, whatever the block holds.

**Results.**
* `parse_append`: a text behind a complete block adds its own sheet.
-/

namespace ContrastAudit

namespace Sheet

/-- Adding sheets is associative if the one in the middle holds each custom property once. -/
theorem append_assoc (a : Sheet) {b : Sheet} (hb : b.properties.Distinct) (c : Sheet) :
    a ++ b ++ c = a ++ (b ++ c) := by
  have hproperties := PropertyMap.merge_merge hb a.properties c.properties
  calc a ++ b ++ c
      = ⟨a.rules ++ b.rules ++ c.rules, (a.properties.merge b.properties).merge c.properties,
          a.imports ++ b.imports ++ c.imports⟩ := rfl
    _ = ⟨a.rules ++ (b.rules ++ c.rules), a.properties.merge (b.properties.merge c.properties),
          a.imports ++ (b.imports ++ c.imports)⟩ := by
        rw [List.append_assoc, List.append_assoc, hproperties]
    _ = a ++ (b ++ c) := rfl

end Sheet

namespace Stylesheet

/-! ## Complete blocks -/

/-- How many characters stand between an opening brace and the one that closes it.  The text starts
behind the opening brace or later; `depth` counts the braces opened since. -/
def closingBrace? (depth : Nat) (context : Context) : List Char → Option Nat
  | [] => none
  | c :: cs =>
    if context.reads c ∧ c = '\x7b' then (closingBrace? (depth + 1) .plain cs).map (· + 1)
    else if context.reads c ∧ c = '\x7d' then
      if depth = 0 then some 0 else (closingBrace? (depth - 1) .plain cs).map (· + 1)
    else (closingBrace? depth (context.next c) cs).map (· + 1)

/-- The last character of a text is the brace that closes the last one opened at the top level. -/
def EndsInBlock (text : List Char) : Prop :=
  ∃ front context inside, text = front ++ '\x7b' :: (inside ++ ['\x7d']) ∧
    (Scanner.run {} front).mode = .text 0 context ∧ context.reads '\x7b' = true ∧
    closingBrace? 0 .plain (inside ++ ['\x7d']) = some inside.length

namespace Scanner

/-- A block ends at the brace that closes it. -/
theorem run_of_closingBrace? {text prelude : List Char} {depth n : Nat}
    {context : Context} (h : closingBrace? depth context text = some n) {s : Scanner}
    (hs : s.mode = .body prelude depth context) :
    s.run (text.take (n + 1)) = s.emit (.block prelude (s.held.reverse ++ text.take n)) := by
  induction text generalizing depth context n s with
  | nil => contradiction
  | cons c cs ih =>
      -- a character that is held back leaves the brace to the rest of the text
      have hheld : ∀ {m depth context}, closingBrace? depth context cs = some m →
          s.step c = s.hold c (.body prelude depth context) →
          s.run ((c :: cs).take (m + 1 + 1)) =
            s.emit (.block prelude (s.held.reverse ++ (c :: cs).take (m + 1))) := by
        intro m depth context hm hc
        have hrest := ih hm (s := s.hold c (.body prelude depth context)) rfl
        calc s.run ((c :: cs).take (m + 1 + 1))
            = (s.step c).run (cs.take (m + 1)) := rfl
          _ = _ := by
              rw [hc, hrest]
              simp [hold, emit]
      rw [closingBrace?] at h
      split_ifs at h with hopen hclose hdepth
      · obtain ⟨m, hm, rfl⟩ := Option.map_eq_some_iff.1 h
        obtain ⟨hreads, rfl⟩ := hopen
        refine hheld hm ?_
        simp [step, hs, stepBody, hreads]
      · cases h
        obtain ⟨hreads, rfl⟩ := hclose
        simp [run, step, hs, stepBody, hreads, hdepth]
      · obtain ⟨m, hm, rfl⟩ := Option.map_eq_some_iff.1 h
        obtain ⟨hreads, rfl⟩ := hclose
        obtain ⟨depth, rfl⟩ := Nat.exists_eq_succ_of_ne_zero hdepth
        refine hheld hm ?_
        simp [step, hs, stepBody, hreads]
      · obtain ⟨m, hm, rfl⟩ := Option.map_eq_some_iff.1 h
        refine hheld hm ?_
        rw [step, hs]
        simp only [stepBody, if_neg hopen, if_neg hclose]

end Scanner

namespace EndsInBlock

variable {text : List Char} (h : EndsInBlock text)
include h

/-- Behind a complete block the scanner is as at the start, but for the items it has found. -/
theorem exists_run : ∃ prelude body older,
    Scanner.run {} text = Scanner.withOlder (.block prelude body :: older) {} := by
  obtain ⟨front, context, inside, rfl, hmode, hreads, hclose⟩ := h
  have hopen : (Scanner.run {} front).step '\x7b' =
      { Scanner.run {} front with
        mode := .body (Scanner.run {} front).heldText 0 .plain, held := [] } := by
    rw [Scanner.step, hmode]
    simp [Scanner.stepText, hreads]
  have hbody := Scanner.run_of_closingBrace? hclose (s := (Scanner.run {} front).step '\x7b')
    (by rw [hopen])
  rw [List.take_of_length_le (by simp), List.take_left] at hbody
  refine ⟨(Scanner.run {} front).heldText, inside, (Scanner.run {} front).items, ?_⟩
  calc Scanner.run {} (front ++ '\x7b' :: (inside ++ ['\x7d']))
      = ((Scanner.run {} front).step '\x7b').run (inside ++ ['\x7d']) := Scanner.run_append ..
    _ = _ := by
        rw [hbody, hopen]
        rfl

theorem exists_scan : ∃ items prelude body, scan text = items ++ [.block prelude body] := by
  obtain ⟨prelude, body, older, hrun⟩ := h.exists_run
  refine ⟨older.reverse, prelude, body, ?_⟩
  rw [scan, hrun, Scanner.finish_withOlder]
  exact List.reverse_cons

theorem scan_append (more : List Char) : scan (text ++ more) = scan text ++ scan more := by
  obtain ⟨prelude, body, older, hrun⟩ := h.exists_run
  have hempty : Scanner.finish {} = [] := rfl
  rw [scan, scan, scan, Scanner.run_append, hrun, Scanner.run_withOlder, Scanner.finish_withOlder,
    Scanner.finish_withOlder, hempty, List.nil_append, List.reverse_append]

theorem nodes_append (more : List Char) :
    Node.parse (text ++ more) = Node.parse text ++ Node.parse more := by
  rw [Node.parse_eq_map, h.scan_append, List.map_append, ← Node.parse_eq_map, ← Node.parse_eq_map]

theorem exists_nodes : ∃ nodes prelude body, Node.parse text = nodes ++ [.block prelude body] := by
  obtain ⟨items, prelude, body, hscan⟩ := h.exists_scan
  refine ⟨items.map (Node.ofItem Node.parse), prelude, Node.parse body, ?_⟩
  rw [Node.parse_eq_map, hscan, List.map_append]
  rfl

end EndsInBlock

/-! ## Sheets of blocks -/

theorem distinct_rulesOf (selectors : List String) (ignored : Bool) (body : List Node) :
    (rulesOf selectors ignored body).properties.Distinct := by
  rw [rulesOf]
  dsimp only
  split
  · exact PropertyMap.distinct_merge PropertyMap.distinct_nil _
  · exact PropertyMap.distinct_nil

theorem distinct_sheet (parents : List String) (ignored : Bool) (node : Node) :
    (node.sheet parents ignored).properties.Distinct := by
  cases node with
  | comment text => exact PropertyMap.distinct_nil
  | statement text =>
      rw [Node.sheet, statementSheet]
      split_ifs <;> exact PropertyMap.distinct_nil
  | block prelude body =>
      rw [Node.sheet]
      dsimp only
      split_ifs
      · exact PropertyMap.distinct_merge PropertyMap.distinct_nil _
      · exact PropertyMap.distinct_merge (distinct_rulesOf ..) _
      · exact PropertyMap.distinct_nil
      · exact PropertyMap.distinct_nil
      · exact PropertyMap.distinct_merge (distinct_rulesOf ..) _

theorem flatten_cons {node : Node} (h : ∀ text, node ≠ .comment text) (parents : List String)
    (ignored : Bool) (nodes : List Node) :
    flatten parents ignored (node :: nodes) =
      node.sheet parents ignored ++ flatten parents false nodes := by
  cases node with
  | comment text => exact absurd rfl (h text)
  | statement text => rfl
  | block prelude body => rfl

/-- What is read holds each custom property once. -/
theorem distinct_flatten (parents : List String) (ignored : Bool) (nodes : List Node) :
    (flatten parents ignored nodes).properties.Distinct := by
  induction nodes generalizing ignored with
  | nil => exact PropertyMap.distinct_nil
  | cons node nodes ih =>
      by_cases hcomment : ∃ text, node = .comment text
      · obtain ⟨text, rfl⟩ := hcomment
        exact ih _
      · rw [flatten_cons (not_exists.1 hcomment)]
        exact PropertyMap.distinct_merge (distinct_sheet ..) _

/-- A block takes the mark in front of it, so what follows it is read as if it stood alone. -/
theorem flatten_append (parents : List String) (ignored : Bool) (nodes : List Node)
    (prelude : List Char) (body more : List Node) :
    flatten parents ignored (nodes ++ [.block prelude body] ++ more) =
      flatten parents ignored (nodes ++ [.block prelude body]) ++ flatten parents false more := by
  induction nodes generalizing ignored with
  | nil =>
      have hlast : flatten parents ignored [.block prelude body] =
          (Node.block prelude body).sheet parents ignored := Sheet.append_empty _
      rw [List.nil_append, List.singleton_append, flatten_cons (by simp), hlast]
  | cons node nodes ih =>
      by_cases hcomment : ∃ text, node = .comment text
      · obtain ⟨text, rfl⟩ := hcomment
        exact ih _
      · have hcons := flatten_cons (not_exists.1 hcomment) parents ignored
        rw [List.cons_append, List.cons_append, hcons, hcons, ih,
          Sheet.append_assoc _ (distinct_flatten ..)]

/-- Behind a text that ends in a block any text adds its own sheet, whatever the blocks in front
hold: its rules and imports come last, and its custom properties win. -/
theorem parse_append {a : String} (h : EndsInBlock a.toList) (b : String) :
    parse (a ++ b) = parse a ++ parse b ∧
      (parse (a ++ b)).rules = (parse a).rules ++ (parse b).rules ∧
      (parse (a ++ b)).imports = (parse a).imports ++ (parse b).imports ∧
      ∀ name, (parse (a ++ b)).properties.get? name =
        ((parse b).properties.get? name).or ((parse a).properties.get? name) := by
  obtain ⟨nodes, prelude, body, hnodes⟩ := h.exists_nodes
  have hsheet : parse (a ++ b) = parse a ++ parse b := by
    rw [parse, String.toList_append, h.nodes_append, hnodes, flatten_append, ← hnodes]
    rfl
  refine ⟨hsheet, ?_, ?_, fun name => ?_⟩
  · rw [hsheet, Sheet.rules_append]
  · rw [hsheet, Sheet.imports_append]
  · rw [hsheet, Sheet.properties_append]
    exact PropertyMap.get?_merge (distinct_flatten ..) _ name

/-- An import, a property and a marked block, which has stray text, a brace inside of a string and a
parenthesis that stays open. -/
def torn : String :=
  "@import \"a.css\";:root\x7b--ink:red\x7d/*contrast-ignore*/p" ++
    "\x7bcolor:blue;x y\x7b\x7d;(\"\x7d\"\x7d"

theorem parse_torn_append :
    EndsInBlock torn.toList ∧
      parse (torn ++ "b\x7bcolor:var(--ink)\x7d:root\x7b--ink:black") =
        parse torn ++ parse "b\x7bcolor:var(--ink)\x7d:root\x7b--ink:black" ∧
      parse (torn ++ "b\x7bcolor:var(--ink)\x7d:root\x7b--ink:black") =
        { rules :=
            [⟨"p", [⟨"color", "blue", none⟩], true⟩, ⟨"b", [⟨"color", "var(--ink)", none⟩], false⟩]
          properties := [("--ink", "black")]
          imports := ["a.css"] } := by
  have hends : EndsInBlock torn.toList :=
    ⟨"@import \"a.css\";:root\x7b--ink:red\x7d/*contrast-ignore*/p".toList, .plain,
      "color:blue;x y\x7b\x7d;(\"\x7d\"".toList,
      by decide +kernel, by decide +kernel, rfl, by decide +kernel⟩
  have happend := parse_append hends "b\x7bcolor:var(--ink)\x7d:root\x7b--ink:black"
  exact ⟨hends, happend.1, by decide +kernel⟩

end Stylesheet

end ContrastAudit
