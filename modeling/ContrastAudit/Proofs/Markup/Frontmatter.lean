import ContrastAudit.Markup.Frontmatter
import ContrastAudit.Proofs.Text.Newline

/-!
# Frontmatter and line ends

The block of frontmatter is found by its fences.  The opening one may end its line with a carriage
return, but the closing one may not: in a text whose lines end with carriage returns, it only counts
as the last line, which has no line end.

**Results.**
* `keepsLines_of_split`: the markup behind the block keeps the numbers of its lines.
* `content?_withReturns`: in front of carriage returns, only the last line closes the block.
* `imports_withReturns`: what a block imports, with carriage returns and without.
* `split_withReturns`: which texts are split in the same way with carriage returns.
* `not_forall_exists_split_withReturns`: a block with markup behind it is one that is not.
-/

namespace ContrastAudit.Markup.Frontmatter

open Text (withReturns)

variable {lineStart : Bool} {cs content rest source : List Char}

/-! ## Fences -/

/-- The blanks of a line. -/
def IsIndent (indent : List Char) : Prop :=
  ∀ c ∈ indent, c = ' ' ∨ c = '\t'

theorem skipIndent_withReturns (cs : List Char) :
    skipIndent (withReturns cs) = withReturns (skipIndent cs) :=
  Text.dropWhile_withReturns rfl cs

theorem exists_skipIndent (cs : List Char) :
    ∃ indent, IsIndent indent ∧ cs = indent ++ skipIndent cs := by
  refine ⟨_, fun c hc => ?_, (List.takeWhile_append_dropWhile).symm⟩
  have hblank := List.all_eq_true.1 List.all_takeWhile c hc
  simpa using hblank

theorem rest?_fence_withReturns (cs : List Char) :
    Text.rest? fence (withReturns cs) = (Text.rest? fence cs).map withReturns :=
  Text.rest?_withReturns (by decide) (by decide) cs

theorem rest?_eq_some_iff {word : List Char} :
    Text.rest? word cs = some rest ↔ cs = word ++ rest := by
  induction word generalizing cs with
  | nil => simp [Text.rest?_nil]
  | cons a word ih =>
      cases cs with
      | nil => simp [Text.rest?]
      | cons c cs =>
          rw [Text.rest?_cons]
          split
          · next hsame => simp [ih, hsame]
          · next hother => simp [Ne.symm hother]

theorem afterOpening?_eq_none {c : Char} (h : skipIndent cs = c :: rest) (hnewline : c ≠ '\n')
    (hreturn : c ≠ '\r') : afterOpening? cs = none := by
  rw [afterOpening?, h]
  split
  · next heq => exact absurd (List.cons.inj heq).1 hnewline
  · next heq => exact absurd (List.cons.inj heq).1 hreturn
  · rfl

/-- The opening fence may end its line in both ways. -/
theorem afterOpening?_withReturns (h : '\r' ∉ cs) :
    afterOpening? (withReturns cs) = (afterOpening? cs).map withReturns := by
  cases hrest : skipIndent cs with
  | nil => rw [afterOpening?, afterOpening?, skipIndent_withReturns, hrest]; rfl
  | cons c rest =>
      by_cases hc : c = '\n'
      · rw [afterOpening?, afterOpening?, skipIndent_withReturns, hrest, hc]
        rfl
      · have hreturn : c ≠ '\r' := by
          rintro rfl
          have hmem : '\r' ∈ skipIndent cs := hrest ▸ List.mem_cons_self
          exact h ((List.dropWhile_suffix _).mem hmem)
        have hskip : skipIndent (withReturns cs) = c :: withReturns rest := by
          rw [skipIndent_withReturns, hrest, Text.withReturns_cons hc]
        rw [afterOpening?_eq_none hrest hc hreturn, afterOpening?_eq_none hskip hc hreturn]
        rfl

/-- The closing fence closes only the end of a text with carriage returns. -/
theorem afterClosing?_withReturns (cs : List Char) :
    afterClosing? (withReturns cs) = (afterClosing? cs).filter List.isEmpty := by
  rw [afterClosing?, afterClosing?, rest?_fence_withReturns]
  cases Text.rest? fence cs with
  | none => rfl
  | some rest =>
      simp only [Option.map_some, Option.bind_eq_bind, Option.bind_some, skipIndent_withReturns]
      cases skipIndent rest with
      | nil => rfl
      | cons c ds =>
          by_cases hc : c = '\n'
          · subst hc
            rfl
          · simp [Text.withReturns_cons hc, hc]

theorem skipIndent_append {indent : List Char} (h : IsIndent indent) (cs : List Char) :
    skipIndent (indent ++ cs) = skipIndent cs :=
  List.dropWhile_append_of_pos fun c hc => by simpa using h c hc

theorem newline_not_mem_closing {indent : List Char} (h : IsIndent indent) :
    '\n' ∉ fence ++ indent := by
  intro hmem
  rcases List.mem_append.1 hmem with hfence | hindent
  · exact absurd hfence (by decide)
  · exact absurd (h _ hindent) (by decide)

theorem afterClosing?_eq_some_iff :
    afterClosing? cs = some rest ↔
      ∃ indent, IsIndent indent ∧ cs = fence ++ (indent ++ rest) ∧
        (rest = [] ∨ rest.head? = some '\n') := by
  constructor
  · intro h
    simp only [afterClosing?, Option.bind_eq_bind, Option.bind_eq_some_iff] at h
    obtain ⟨line, hline, h⟩ := h
    obtain ⟨indent, hindent, hsplit⟩ := exists_skipIndent line
    split at h
    · next hend =>
        cases h
        refine ⟨indent, hindent, ?_, by simpa using hend⟩
        rw [← hsplit]
        exact rest?_eq_some_iff.1 hline
    · contradiction
  · rintro ⟨indent, hindent, rfl, hend⟩
    have hskip : skipIndent (indent ++ rest) = rest := by
      rw [skipIndent_append hindent]
      rcases hend with rfl | hhead
      · rfl
      · obtain ⟨ds, rfl⟩ := List.head?_eq_some_iff.1 hhead
        rfl
    simpa [afterClosing?, rest?_eq_some_iff.2 rfl, hskip] using or_iff_not_imp_left.1 hend

/-! ## The content of the block -/

theorem content?_of_closing (h : afterClosing? cs = some rest) :
    content? true cs = some ([], rest) := by
  rw [content?.eq_def, if_pos rfl, h]

theorem content?_nil (lineStart : Bool) : content? lineStart [] = none := by
  cases lineStart <;> rfl

theorem content?_cons_of {c : Char} (h : lineStart = true → afterClosing? (c :: cs) = none) :
    content? lineStart (c :: cs) =
      (content? (c == '\n') cs).map fun (content, rest) => (c :: content, rest) := by
  rw [content?]
  cases lineStart with
  | false => rfl
  | true => rw [if_pos rfl, h rfl]

/-- The block ends where a line closes it, or it goes on. -/
theorem content?_cases (lineStart : Bool) (c : Char) (cs : List Char) :
    (∃ rest, lineStart = true ∧ afterClosing? (c :: cs) = some rest ∧
        content? lineStart (c :: cs) = some ([], rest)) ∨
      (lineStart = true → afterClosing? (c :: cs) = none) ∧
        content? lineStart (c :: cs) =
          (content? (c == '\n') cs).map fun (content, rest) => (c :: content, rest) := by
  by_cases hopen : lineStart = true → afterClosing? (c :: cs) = none
  · exact .inr ⟨hopen, content?_cons_of hopen⟩
  · obtain ⟨rfl, hsome⟩ := Classical.not_imp.1 hopen
    obtain ⟨rest, hrest⟩ := Option.ne_none_iff_exists'.1 hsome
    exact .inl ⟨rest, rfl, hrest, content?_of_closing hrest⟩

/-- A text behind which a line starts. -/
def IsBeforeLine (lineStart : Bool) (content : List Char) : Prop :=
  (lineStart = true ∧ content = []) ∨ content.getLast? = some '\n'

theorem isBeforeLine_cons {c : Char} :
    IsBeforeLine lineStart (c :: content) ↔ IsBeforeLine (c == '\n') content := by
  cases content with
  | nil => simp [IsBeforeLine]
  | cons d content => simp [IsBeforeLine]

/-- The block ends at a line that closes it. -/
theorem content?_eq_some (h : content? lineStart cs = some (content, rest)) :
    ∃ tail, cs = content ++ tail ∧ afterClosing? tail = some rest ∧
      IsBeforeLine lineStart content := by
  induction cs generalizing lineStart content with
  | nil =>
      rw [content?_nil] at h
      contradiction
  | cons c cs ih =>
      rcases content?_cases lineStart c cs with ⟨rest', hstart, hrest, hhere⟩ | ⟨-, hlater⟩
      · rw [hhere] at h
        cases h
        exact ⟨c :: cs, rfl, hrest, .inl ⟨hstart, rfl⟩⟩
      · rw [hlater] at h
        obtain ⟨⟨content', rest'⟩, h', heq⟩ := Option.map_eq_some_iff.1 h
        cases heq
        obtain ⟨tail, rfl, htail, hbefore⟩ := ih h'
        exact ⟨tail, rfl, htail, isBeforeLine_cons.2 hbefore⟩

/-- The content of a block that the last line of the text closes. -/
def lastContent? (lineStart : Bool) (cs : List Char) : Option (List Char) :=
  if lineStart = true ∧ afterClosing? cs = some [] then some []
  else
    match cs with
    | [] => none
    | c :: cs => (lastContent? (c == '\n') cs).map (c :: ·)

theorem lastContent?_nil (lineStart : Bool) : lastContent? lineStart [] = none := by
  rw [lastContent?, if_neg fun h => absurd h.2 (by decide)]

/-- With carriage returns, only the last line can close the block. -/
theorem content?_withReturns (cs : List Char) (lineStart : Bool) :
    content? lineStart (withReturns cs) =
      (lastContent? lineStart cs).map fun content => (withReturns content, []) := by
  induction cs generalizing lineStart with
  | nil => rw [Text.withReturns_nil, content?_nil, lastContent?_nil, Option.map_none]
  | cons c cs ih =>
      by_cases hclosing : lineStart = true ∧ afterClosing? (c :: cs) = some []
      · have hsealed : afterClosing? (withReturns (c :: cs)) = some [] := by
          rw [afterClosing?_withReturns, hclosing.2]
          rfl
        rw [lastContent?, if_pos hclosing, hclosing.1, content?_of_closing hsealed]
        rfl
      · rw [lastContent?, if_neg hclosing]
        have hopen : lineStart = true → afterClosing? (withReturns (c :: cs)) = none := by
          intro hstart
          rw [afterClosing?_withReturns, Option.filter_eq_none_iff]
          intro rest hrest hempty
          exact hclosing ⟨hstart, by rw [hrest, List.isEmpty_iff.1 hempty]⟩
        by_cases hc : c = '\n'
        · -- A line starts behind the line feed, not behind the carriage return in front of it.
          subst hc
          rw [Text.withReturns_newline] at hopen ⊢
          rw [content?_cons_of hopen, content?_cons_of (fun h => absurd h (by decide)), ih,
            Option.map_map, Option.map_map, Option.map_map]
          rfl
        · rw [Text.withReturns_cons hc] at hopen ⊢
          rw [content?_cons_of hopen, ih, Option.map_map, Option.map_map]
          congr 1
          funext content
          simp [Text.withReturns_cons hc]

theorem lastContent?_eq_some_iff :
    lastContent? lineStart cs = some content ↔
      ∃ indent, IsIndent indent ∧ cs = content ++ (fence ++ indent) ∧
        IsBeforeLine lineStart content := by
  induction cs generalizing lineStart content with
  | nil =>
      rw [lastContent?_nil]
      refine ⟨fun h => absurd h (by simp), ?_⟩
      rintro ⟨indent, -, heq, -⟩
      have hfence := (List.append_eq_nil_iff.1 (List.append_eq_nil_iff.1 heq.symm).2).1
      exact absurd hfence (by decide)
  | cons c cs ih =>
      by_cases hclosing : lineStart = true ∧ afterClosing? (c :: cs) = some []
      · obtain ⟨indent, hindent, hcs, -⟩ := afterClosing?_eq_some_iff.1 hclosing.2
        rw [lastContent?, if_pos hclosing]
        constructor
        · rintro ⟨⟩
          exact ⟨indent, hindent, by simpa using hcs, .inl ⟨hclosing.1, rfl⟩⟩
        · -- A longer content would leave its last line feed in the fence that closes it here.
          rintro ⟨indent', hindent', hcs', hbefore⟩
          rcases hbefore with ⟨-, rfl⟩ | hlast
          · rfl
          · have hmem : '\n' ∈ c :: cs := by
              rw [hcs']
              exact List.mem_append_left _ (List.mem_of_getLast? hlast)
            rw [hcs, List.append_nil] at hmem
            exact absurd hmem (newline_not_mem_closing hindent)
      · rw [lastContent?, if_neg hclosing, Option.map_eq_some_iff]
        constructor
        · rintro ⟨content', h', rfl⟩
          obtain ⟨indent, hindent, rfl, hbefore⟩ := ih.1 h'
          exact ⟨indent, hindent, rfl, isBeforeLine_cons.2 hbefore⟩
        · rintro ⟨indent, hindent, hcs, hbefore⟩
          cases content with
          | nil =>
              have hstart : lineStart = true := by simpa [IsBeforeLine] using hbefore
              have hlast : afterClosing? (c :: cs) = some [] :=
                afterClosing?_eq_some_iff.2 ⟨indent, hindent, by simpa using hcs, .inl rfl⟩
              exact absurd ⟨hstart, hlast⟩ hclosing
          | cons d content =>
              rw [List.cons_append, List.cons.injEq] at hcs
              obtain ⟨rfl, hcs⟩ := hcs
              exact ⟨content, ih.2 ⟨indent, hindent, hcs, isBeforeLine_cons.1 hbefore⟩, rfl⟩

/-- What the last line closes is closed somewhere. -/
theorem exists_content?_of_lastContent? (h : lastContent? lineStart cs = some content) :
    ∃ block, content? lineStart cs = some block := by
  induction cs generalizing lineStart content with
  | nil =>
      rw [lastContent?_nil] at h
      contradiction
  | cons c cs ih =>
      rcases content?_cases lineStart c cs with ⟨rest, -, -, hhere⟩ | ⟨hopen, hlater⟩
      · exact ⟨_, hhere⟩
      · rw [lastContent?, if_neg (fun hlast => by simp [hopen hlast.1] at hlast),
          Option.map_eq_some_iff] at h
        obtain ⟨content', h', -⟩ := h
        obtain ⟨block, hblock⟩ := ih h'
        exact ⟨_, by rw [hlater, hblock]; rfl⟩

/-- The last line closes the block that is found exactly if nothing stands behind the block. -/
theorem lastContent?_eq_some_iff_of_content? (h : content? true cs = some (content, rest)) :
    lastContent? true cs = some content ↔ rest = [] := by
  obtain ⟨tail, rfl, htail, hbefore⟩ := content?_eq_some h
  rw [lastContent?_eq_some_iff]
  constructor
  · rintro ⟨indent, hindent, heq, -⟩
    have hclosed : afterClosing? tail = some [] :=
      afterClosing?_eq_some_iff.2
        ⟨indent, hindent, by simpa using List.append_cancel_left heq, .inl rfl⟩
    rw [htail] at hclosed
    exact Option.some.inj hclosed
  · rintro rfl
    obtain ⟨indent, hindent, htail, -⟩ := afterClosing?_eq_some_iff.1 htail
    exact ⟨indent, hindent, by rw [htail, List.append_nil], hbefore⟩

/-- A text that ends in a fence on a line of its own. -/
def EndsInFence (cs : List Char) : Prop :=
  ∃ front indent, IsIndent indent ∧ cs = front ++ '\n' :: (fence ++ indent)

/-- The last line behind an opening fence closes the block exactly if the whole text ends in a
fence. -/
theorem exists_lastContent?_iff (opening cs : List Char) :
    (∃ content, lastContent? true cs = some content) ↔ EndsInFence (opening ++ '\n' :: cs) := by
  constructor
  · rintro ⟨content, h⟩
    obtain ⟨indent, hindent, rfl, hbefore⟩ := lastContent?_eq_some_iff.1 h
    rcases hbefore with ⟨-, rfl⟩ | hlast
    · exact ⟨opening, indent, hindent, rfl⟩
    · obtain ⟨content, rfl⟩ := List.getLast?_eq_some_iff.1 hlast
      exact ⟨opening ++ '\n' :: content, indent, hindent, by simp⟩
  · rintro ⟨front, indent, hindent, heq⟩
    rcases List.append_eq_append_iff.1 heq with ⟨front', rfl, hcs⟩ | ⟨opening', rfl, hcs⟩
    · cases front' with
      | nil =>
          exact ⟨[], lastContent?_eq_some_iff.2
            ⟨indent, hindent, (List.cons.inj hcs).2, .inl ⟨rfl, rfl⟩⟩⟩
      | cons d front' =>
          rw [List.cons_append, List.cons.injEq] at hcs
          exact ⟨front' ++ ['\n'], lastContent?_eq_some_iff.2
            ⟨indent, hindent, by simpa using hcs.2, .inr (by simp)⟩⟩
    · cases opening' with
      | nil =>
          exact ⟨[], lastContent?_eq_some_iff.2
            ⟨indent, hindent, (List.cons.inj hcs).2.symm, .inl ⟨rfl, rfl⟩⟩⟩
      | cons d opening' =>
          -- The fence of the last line would hold a line feed.
          rw [List.cons_append, List.cons.injEq] at hcs
          have hmem : '\n' ∈ fence ++ indent := by
            rw [hcs.2]
            exact List.mem_append_right _ List.mem_cons_self
          exact absurd hmem (newline_not_mem_closing hindent)

/-! ## Imports -/

/-- The characters around the name of a file. -/
def isQuote (c : Char) : Bool :=
  c == '"' || c == '\''

theorem length_takeWhile_lt_iff {p : Char → Bool} :
    (cs.takeWhile p).length < cs.length ↔ cs.dropWhile p ≠ [] := by
  have hlength := congrArg List.length (List.takeWhile_append_dropWhile (p := p) (l := cs))
  rw [List.length_append] at hlength
  rw [← List.length_pos_iff]
  omega

theorem quotedFile?_cons (q : Char) (cs : List Char) :
    quotedFile? (q :: cs) =
      if isQuote q = true ∧ cs.dropWhile (!isQuote ·) ≠ [] ∧
          4 < (cs.takeWhile (!isQuote ·)).length ∧
          ".css".toList <:+ cs.takeWhile (!isQuote ·) then
        some (cs.takeWhile (!isQuote ·))
      else none := by
  simp only [← length_takeWhile_lt_iff]
  simp [quotedFile?, isQuote, and_assoc]

theorem quotedFile?_eq_some {file : List Char} (h : quotedFile? cs = some file) :
    ∃ q q' rest, cs = q :: (file ++ q' :: rest) ∧ isQuote q = true ∧ isQuote q' = true := by
  cases cs with
  | nil => contradiction
  | cons q cs =>
      rw [quotedFile?_cons] at h
      split at h
      · next hfile =>
          obtain ⟨hq, hclosed, -⟩ := hfile
          obtain ⟨q', rest, hrest⟩ := List.exists_cons_of_ne_nil hclosed
          have hq' : isQuote q' = true := by
            have hhead := List.head?_dropWhile_not (!isQuote ·) cs
            rw [hrest] at hhead
            simpa using hhead
          refine ⟨q, q', rest, ?_, hq, hq'⟩
          rw [← Option.some.inj h, ← hrest, List.takeWhile_append_dropWhile]
      · contradiction

/-- The name in front of the extension is not empty, with carriage returns or without. -/
theorem four_lt_length_withReturns_iff {file : List Char} (h : ".css".toList <:+ file) :
    4 < (withReturns file).length ↔ 4 < file.length := by
  obtain ⟨name, rfl⟩ := h
  have hextension : (withReturns ".css".toList).length = 4 := by decide
  rw [Text.withReturns_append, List.length_append, List.length_append, hextension]
  have hname : 0 < (withReturns name).length ↔ 0 < name.length := by
    rw [List.length_pos_iff, List.length_pos_iff, ne_eq, Text.withReturns_eq_nil_iff]
  have hfour : ".css".toList.length = 4 := by decide
  omega

theorem quotedFile?_withReturns (cs : List Char) :
    quotedFile? (withReturns cs) = (quotedFile? cs).map withReturns := by
  cases cs with
  | nil => rfl
  | cons q cs =>
      by_cases hq : q = '\n'
      · subst hq
        rfl
      · rw [Text.withReturns_cons hq, quotedFile?_cons, quotedFile?_cons,
          Text.takeWhile_withReturns rfl, Text.dropWhile_withReturns rfl]
        have hextension : ".css".toList <:+ withReturns (cs.takeWhile (!isQuote ·)) ↔
            ".css".toList <:+ cs.takeWhile (!isQuote ·) :=
          Text.suffix_withReturns_iff (by decide) (by decide)
        have hsame : 4 < (withReturns (cs.takeWhile (!isQuote ·))).length ∧
              ".css".toList <:+ cs.takeWhile (!isQuote ·) ↔
            4 < (cs.takeWhile (!isQuote ·)).length ∧
              ".css".toList <:+ cs.takeWhile (!isQuote ·) :=
          and_congr_left four_lt_length_withReturns_iff
        simp only [ne_eq, Text.withReturns_eq_nil_iff, hextension, hsame]
        split <;> rfl

theorem import?_of_rest? (h : Text.rest? "import".toList cs = some rest) : import? cs =
      if rest.takeWhile Text.isBlank = [] then none
      else (quotedFile? (rest.dropWhile Text.isBlank)).map fun file =>
        (file, 6 + (rest.takeWhile Text.isBlank).length + file.length + 2) := by
  have hdrop : rest.drop (rest.takeWhile Text.isBlank).length = rest.dropWhile Text.isBlank := by
    have hsplit := List.takeWhile_append_dropWhile (p := Text.isBlank) (l := rest)
    exact (List.append_right_inj _).1
      ((List.prefix_iff_eq_append.1 (List.takeWhile_prefix _)).trans hsplit.symm)
  rw [import?, h]
  simp only [Option.bind_eq_bind, Option.bind_some, List.length_eq_zero_iff, hdrop]
  split
  · rfl
  · cases quotedFile? (rest.dropWhile Text.isBlank) <;> rfl

/-- The length of an import grows by the carriage returns in it. -/
theorem import?_withReturns (cs : List Char) : import? (withReturns cs) =
    (import? cs).map fun (file, length) =>
      (withReturns file, (withReturns (cs.take length)).length) := by
  have hword : Text.rest? "import".toList (withReturns cs) =
      (Text.rest? "import".toList cs).map withReturns :=
    Text.rest?_withReturns (by decide) (by decide) cs
  cases hrest : Text.rest? "import".toList cs with
  | none =>
      rw [hrest] at hword
      rw [import?, import?, hrest, hword]
      rfl
  | some rest =>
      rw [hrest] at hword
      rw [import?_of_rest? hrest, import?_of_rest? hword, Text.takeWhile_withReturns rfl,
        Text.dropWhile_withReturns rfl, quotedFile?_withReturns]
      simp only [Text.withReturns_eq_nil_iff]
      split
      · rfl
      · cases hfile : quotedFile? (rest.dropWhile Text.isBlank) with
        | none => rfl
        | some file =>
            obtain ⟨q, q', behind, hquoted, hq, hq'⟩ := quotedFile?_eq_some hfile
            have hcs : cs = ("import".toList ++ rest.takeWhile Text.isBlank ++
                q :: (file ++ [q'])) ++ behind := by
              rw [rest?_eq_some_iff.1 hrest]
              conv_lhs => rw [← List.takeWhile_append_dropWhile (p := Text.isBlank) (l := rest)]
              simp [hquoted]
            have hlength : 6 + (rest.takeWhile Text.isBlank).length + file.length + 2 =
                ("import".toList ++ rest.takeWhile Text.isBlank ++ q :: (file ++ [q'])).length := by
              simp
              omega
            have hnewline : '\n' ∉ "import".toList := by decide
            simp only [Option.map_some, Option.some.injEq, Prod.mk.injEq, true_and]
            rw [hlength, hcs, List.take_left]
            have hq_ne : q ≠ '\n' := by
              rintro rfl
              exact absurd hq (by decide)
            have hq'_ne : q' ≠ '\n' := by
              rintro rfl
              exact absurd hq' (by decide)
            rw [Text.withReturns_append, Text.withReturns_append,
              Text.withReturns_of_not_mem hnewline, Text.withReturns_cons hq_ne,
              Text.withReturns_append, Text.withReturns_cons hq'_ne]
            simp
            omega

theorem length_pos_of_import? {file : List Char} {length : Nat}
    (h : import? cs = some (file, length)) : 0 < length := by
  cases hrest : Text.rest? "import".toList cs with
  | none =>
      rw [import?, hrest] at h
      contradiction
  | some rest =>
      rw [import?_of_rest? hrest] at h
      split at h
      · contradiction
      · obtain ⟨file', -, heq⟩ := Option.map_eq_some_iff.1 h
        cases heq
        omega

theorem drop_withReturns (length : Nat) (cs : List Char) :
    (withReturns cs).drop (withReturns (cs.take length)).length = withReturns (cs.drop length) := by
  have hsplit : withReturns cs = withReturns (cs.take length) ++ withReturns (cs.drop length) := by
    rw [← Text.withReturns_append, List.take_append_drop]
  rw [hsplit, List.drop_left]

theorem imports_nil : imports [] = [] := by
  rw [imports]

theorem imports_of_none {c : Char} (h : import? (c :: cs) = none) :
    imports (c :: cs) = imports cs := by
  rw [imports, h]

theorem imports_of_some {file : List Char} {length : Nat}
    (h : import? cs = some (file, length)) :
    imports cs = String.ofList file :: imports (cs.drop length) := by
  cases cs with
  | nil => contradiction
  | cons c cs =>
      obtain ⟨length, rfl⟩ := Nat.exists_eq_add_one.2 (length_pos_of_import? h)
      rw [imports, h]
      rfl

/-- The names of the files keep their line ends. -/
theorem imports_withReturns (cs : List Char) :
    imports (withReturns cs) =
      (imports cs).map fun file => String.ofList (withReturns file.toList) := by
  induction hn : cs.length using Nat.strong_induction_on generalizing cs with
  | _ n ih =>
      subst hn
      cases himport : import? cs with
      | some named =>
          obtain ⟨file, length⟩ := named
          have hpos := length_pos_of_import? himport
          have hreturns : import? (withReturns cs) =
              some (withReturns file, (withReturns (cs.take length)).length) := by
            rw [import?_withReturns, himport]
            rfl
          have hshorter : (cs.drop length).length < cs.length := by
            have hne : cs ≠ [] := by
              rintro rfl
              contradiction
            have := List.length_pos_iff.2 hne
            rw [List.length_drop]
            omega
          rw [imports_of_some himport, imports_of_some hreturns, drop_withReturns,
            ih _ hshorter _ rfl, List.map_cons, String.toList_ofList]
      | none =>
          have hreturns : import? (withReturns cs) = none := by
            rw [import?_withReturns, himport]
            rfl
          cases cs with
          | nil => rw [Text.withReturns_nil, imports_nil, List.map_nil]
          | cons c cs =>
              have ih := ih cs.length (Nat.lt_succ_self _) cs rfl
              rw [imports_of_none himport, ← ih]
              by_cases hc : c = '\n'
              · -- Neither the carriage return nor the line feed starts an import.
                subst hc
                rw [Text.withReturns_newline] at hreturns ⊢
                rw [imports_of_none hreturns, imports_of_none rfl]
              · rw [Text.withReturns_cons hc] at hreturns ⊢
                rw [imports_of_none hreturns]

/-- The imports are the same unless the name of a file has several lines. -/
theorem imports_withReturns_eq_self_iff :
    imports (withReturns cs) = imports cs ↔ ∀ file ∈ imports cs, '\n' ∉ file.toList := by
  rw [imports_withReturns]
  nth_rewrite 2 [← List.map_id (imports cs)]
  rw [List.map_inj_left]
  refine forall₂_congr fun file _ => ?_
  rw [id_eq, ← Text.withReturns_eq_self_iff, ← String.toList_inj, String.toList_ofList]

/-! ## The whole text -/

/-- The lines behind the opening fence of a text. -/
def inner? (source : List Char) : Option (List Char) :=
  (Text.rest? fence (Text.trimStart source)).bind afterOpening?

/-- The content of the block of a text, and the markup behind the block. -/
def block? (source : List Char) : Option (List Char × List Char) :=
  (inner? source).bind (content? true)

theorem rest?_eq_none_iff {word : List Char} : Text.rest? word cs = none ↔ ¬ word <+: cs := by
  simp [Text.rest?]

theorem split_of_not_fence (h : ¬ fence <+: Text.trimStart source) :
    split source = .ok ([], source) := by
  rw [split, rest?_eq_none_iff.2 h]

theorem split_of_block? (h : block? source = some (content, rest)) :
    split source = .ok (content, List.replicate
      ((source.take (source.length - rest.length)).count '\n') '\n' ++ rest) := by
  rw [block?, inner?, Option.bind_assoc, Option.bind_eq_some_iff] at h
  obtain ⟨line, hline, h⟩ := h
  simp only [split, hline, h]

theorem split_ne_ok (hfence : fence <+: Text.trimStart source) (h : block? source = none)
    (parts : List Char × List Char) : split source ≠ .ok parts := by
  obtain ⟨line, hline⟩ := Option.ne_none_iff_exists'.1 fun hnone =>
    absurd hfence (rest?_eq_none_iff.1 hnone)
  rw [block?, inner?, hline] at h
  have hnone : (afterOpening? line).bind (content? true) = none := h
  simp [split, hline, hnone]

/-- A text is split if it has no block or a closed one. -/
theorem split_eq_ok_iff {body : List Char} :
    split source = .ok (content, body) ↔
      (¬ fence <+: Text.trimStart source ∧ content = [] ∧ body = source) ∨
        ∃ rest, block? source = some (content, rest) ∧ body = List.replicate
          ((source.take (source.length - rest.length)).count '\n') '\n' ++ rest := by
  constructor
  · intro h
    by_cases hfence : fence <+: Text.trimStart source
    · cases hblock : block? source with
      | none => exact absurd h (split_ne_ok hfence hblock _)
      | some block =>
          obtain ⟨content', rest⟩ := block
          rw [split_of_block? hblock] at h
          cases h
          exact .inr ⟨rest, rfl, rfl⟩
    · rw [split_of_not_fence hfence] at h
      cases h
      exact .inl ⟨hfence, rfl, rfl⟩
  · rintro (⟨hfence, rfl, rfl⟩ | ⟨rest, hblock, rfl⟩)
    · exact split_of_not_fence hfence
    · exact split_of_block? hblock

theorem exists_split_iff :
    (∃ parts, split source = .ok parts) ↔
      (fence <+: Text.trimStart source → ∃ block, block? source = some block) := by
  constructor
  · rintro ⟨parts, h⟩ hfence
    by_contra hnone
    exact split_ne_ok hfence (Option.eq_none_iff_forall_ne_some.2 fun block hblock =>
      hnone ⟨block, hblock⟩) parts h
  · intro h
    by_cases hfence : fence <+: Text.trimStart source
    · obtain ⟨⟨content, rest⟩, hblock⟩ := h hfence
      exact ⟨_, split_of_block? hblock⟩
    · exact ⟨_, split_of_not_fence hfence⟩

theorem afterOpening?_eq_some (h : afterOpening? cs = some rest) :
    ∃ opening, cs = opening ++ '\n' :: rest := by
  obtain ⟨indent, -, hcs⟩ := exists_skipIndent cs
  rw [afterOpening?] at h
  split at h
  · next hskip =>
      cases h
      exact ⟨indent, by rw [← hskip, ← hcs]⟩
  · next hskip =>
      cases h
      refine ⟨indent ++ ['\r'], ?_⟩
      rw [List.append_assoc, List.singleton_append, ← hskip, ← hcs]
  · contradiction

theorem inner?_eq_some {lines : List Char} (h : inner? source = some lines) :
    fence <+: Text.trimStart source ∧ ∃ opening, source = opening ++ '\n' :: lines := by
  obtain ⟨line, hline, h⟩ := Option.bind_eq_some_iff.1 h
  have htrim := rest?_eq_some_iff.1 hline
  obtain ⟨opening, rfl⟩ := afterOpening?_eq_some h
  obtain ⟨blanks, hblanks⟩ := List.dropWhile_suffix Text.isBlank (l := source)
  refine ⟨htrim ▸ List.prefix_append _ _, blanks ++ (fence ++ opening), ?_⟩
  rw [← hblanks, ← Text.trimStart, htrim]
  simp

theorem inner?_withReturns (h : '\r' ∉ source) :
    inner? (withReturns source) = (inner? source).map withReturns := by
  rw [inner?, inner?, Text.trimStart, Text.dropWhile_withReturns rfl, rest?_fence_withReturns,
    ← Text.trimStart]
  cases hline : Text.rest? fence (Text.trimStart source) with
  | none => rfl
  | some line =>
      have htrim := rest?_eq_some_iff.1 hline
      have hreturn : '\r' ∉ line := by
        intro hmem
        have hmem' : '\r' ∈ Text.trimStart source := htrim ▸ List.mem_append_right _ hmem
        exact h ((List.dropWhile_suffix _).mem hmem')
      exact afterOpening?_withReturns hreturn

theorem block?_withReturns (h : '\r' ∉ source) :
    block? (withReturns source) =
      ((inner? source).bind (lastContent? true)).map fun content => (withReturns content, []) := by
  rw [block?, inner?_withReturns h]
  cases inner? source with
  | none => rfl
  | some lines => exact content?_withReturns lines true

theorem fence_prefix_withReturns_iff :
    fence <+: Text.trimStart (withReturns source) ↔ fence <+: Text.trimStart source := by
  have hrest : Text.rest? fence (Text.trimStart (withReturns source)) =
      (Text.rest? fence (Text.trimStart source)).map withReturns := by
    rw [Text.trimStart, Text.dropWhile_withReturns rfl, rest?_fence_withReturns, ← Text.trimStart]
  rw [← not_iff_not, ← rest?_eq_none_iff, ← rest?_eq_none_iff, hrest, Option.map_eq_none_iff]

/-- A body whose characters stand on the lines on which they stand in the source: in front of what
is left of the source are as many line feeds as there were. -/
def KeepsLines (source body : List Char) : Prop :=
  ∃ block breaks rest, source = block ++ rest ∧ body = breaks ++ rest ∧ (∀ c ∈ breaks, c = '\n') ∧
    ∀ front, front <+: rest → (breaks ++ front).count '\n' = (block ++ front).count '\n'

theorem keepsLines_of_split {body : List Char} (h : split source = .ok (content, body)) :
    KeepsLines source body := by
  rcases split_eq_ok_iff.1 h with ⟨-, -, rfl⟩ | ⟨rest, hblock, rfl⟩
  · exact ⟨[], [], body, rfl, rfl, by simp, fun _ _ => rfl⟩
  · obtain ⟨lines, hlines, hcontent⟩ := Option.bind_eq_some_iff.1 hblock
    obtain ⟨-, opening, hopening⟩ := inner?_eq_some hlines
    have hsuffix : rest <:+ source := by
      rw [hopening]
      exact (suffix_of_content? hcontent).trans
        ((List.suffix_cons _ _).trans (List.suffix_append _ _))
    obtain ⟨block, rfl⟩ := hsuffix
    have htake : (block ++ rest).take ((block ++ rest).length - rest.length) = block := by
      rw [List.length_append, Nat.add_sub_cancel, List.take_left]
    rw [htake]
    refine ⟨block, _, rest, rfl, rfl, fun c hc => List.eq_of_mem_replicate hc, fun front _ => ?_⟩
    rw [List.count_append, List.count_append, List.count_replicate_self]

theorem exists_split_withReturns_iff (h : '\r' ∉ source) :
    (∃ parts, split (withReturns source) = .ok parts) ↔
      (∃ parts, split source = .ok parts) ∧
        (fence <+: Text.trimStart source → EndsInFence source) := by
  rw [exists_split_iff, exists_split_iff, fence_prefix_withReturns_iff, ← imp_and]
  refine imp_congr_right fun _ => ?_
  rw [block?_withReturns h, block?]
  cases hlines : inner? source with
  | none => simp
  | some lines =>
      obtain ⟨-, opening, hopening⟩ := inner?_eq_some hlines
      simp only [Option.bind_some, Option.map_eq_some_iff]
      rw [hopening, ← exists_lastContent?_iff]
      constructor
      · rintro ⟨-, content, hcontent, -⟩
        exact ⟨exists_content?_of_lastContent? hcontent, content, hcontent⟩
      · rintro ⟨-, content, hcontent⟩
        exact ⟨_, content, hcontent, rfl⟩

/-- The same block is found exactly if no markup stands behind it. -/
theorem exists_block?_withReturns_iff (h : '\r' ∉ source)
    (hblock : block? source = some (content, rest)) :
    (∃ rest', block? (withReturns source) = some (withReturns content, rest')) ↔ rest = [] := by
  obtain ⟨lines, hlines, hcontent⟩ := Option.bind_eq_some_iff.1 hblock
  obtain ⟨-, opening, hopening⟩ := inner?_eq_some hlines
  have hreturn : '\r' ∉ lines := fun hmem =>
    h (hopening ▸ List.mem_append_right _ (List.mem_cons_of_mem _ hmem))
  rw [block?_withReturns h, hlines, Option.bind_some,
    ← lastContent?_eq_some_iff_of_content? hcontent]
  constructor
  · rintro ⟨rest', hsame⟩
    obtain ⟨content', hlast, heq⟩ := Option.map_eq_some_iff.1 hsame
    obtain ⟨tail, hcs, -, -⟩ := content?_eq_some hcontent
    obtain ⟨indent, -, hcs', -⟩ := lastContent?_eq_some_iff.1 hlast
    have hcontent_return : '\r' ∉ content := fun hmem =>
      hreturn (hcs ▸ List.mem_append_left _ hmem)
    have hcontent_return' : '\r' ∉ content' := fun hmem =>
      hreturn (hcs' ▸ List.mem_append_left _ hmem)
    rwa [← (Text.withReturns_inj hcontent_return' hcontent_return).1 (Prod.mk.inj heq).1]
  · intro hlast
    exact ⟨[], by rw [hlast]; rfl⟩

theorem exists_split_withReturns_content_iff (h : '\r' ∉ source) {body : List Char}
    (hsplit : split source = .ok (content, body)) :
    (∃ body', split (withReturns source) = .ok (withReturns content, body')) ↔
      (fence <+: Text.trimStart source → block? source = some (content, [])) := by
  rcases split_eq_ok_iff.1 hsplit with ⟨hfence, rfl, rfl⟩ | ⟨rest, hblock, -⟩
  · have hfence' := mt fence_prefix_withReturns_iff.1 hfence
    exact ⟨fun _ hprefix => absurd hprefix hfence, fun _ => ⟨_, split_of_not_fence hfence'⟩⟩
  · have hfence : fence <+: Text.trimStart source := by
      obtain ⟨lines, hlines, -⟩ := Option.bind_eq_some_iff.1 hblock
      exact (inner?_eq_some hlines).1
    have hempty : (fence <+: Text.trimStart source → block? source = some (content, [])) ↔
        rest = [] := by
      rw [hblock]
      simp [hfence]
    rw [hempty, ← exists_block?_withReturns_iff h hblock]
    constructor
    · rintro ⟨body', hsplit'⟩
      rcases split_eq_ok_iff.1 hsplit' with ⟨hnone, -, -⟩ | ⟨rest', hblock', -⟩
      · exact absurd (fence_prefix_withReturns_iff.2 hfence) hnone
      · exact ⟨rest', hblock'⟩
    · rintro ⟨rest', hblock'⟩
      exact ⟨_, split_of_block? hblock'⟩

/-- With a carriage return in front of every line feed, a text with a block is split exactly if a
fence ends it, and the block is the same exactly if no markup stands behind it; its imports are then
the same unless the name of a file has several lines.  In every text that is split, the markup keeps
its lines. -/
theorem split_withReturns (h : '\r' ∉ source) :
    ((∃ parts, split (withReturns source) = .ok parts) ↔
      (∃ parts, split source = .ok parts) ∧
        (fence <+: Text.trimStart source → EndsInFence source)) ∧
    (∀ content body, split source = .ok (content, body) →
      ((∃ body', split (withReturns source) = .ok (withReturns content, body')) ↔
        (fence <+: Text.trimStart source → block? source = some (content, []))) ∧
      (imports (withReturns content) = imports content ↔
        ∀ file ∈ imports content, '\n' ∉ file.toList)) ∧
    ∀ text content body, split text = .ok (content, body) → KeepsLines text body :=
  ⟨exists_split_withReturns_iff h,
    fun _ _ hsplit => ⟨exists_split_withReturns_content_iff h hsplit,
      imports_withReturns_eq_self_iff⟩,
    fun _ _ _ => keepsLines_of_split⟩

theorem split_withReturns_imports_only :
    '\r' ∉ "---\nimport 'a.css';\n---".toList ∧
      ∃ body, split (withReturns "---\nimport 'a.css';\n---".toList) =
        .ok (withReturns "import 'a.css';\n".toList, body) :=
  ⟨by decide, ((split_withReturns (by decide)).2.1 _ ['\n', '\n'] rfl).1.2 fun _ => by decide⟩

/-- Behind a carriage return, the fence in front of the markup closes nothing. -/
theorem not_forall_exists_split_withReturns :
    ¬ ∀ source : List Char, '\r' ∉ source →
      ((∃ parts, split source = .ok parts) ↔ ∃ parts, split (withReturns source) = .ok parts) := by
  intro h
  obtain ⟨parts, hparts⟩ :=
    (h "---\nimport 'a.css';\n---\n<p>x</p>".toList (by decide)).1 ⟨_, rfl⟩
  have hopen : split (withReturns "---\nimport 'a.css';\n---\n<p>x</p>".toList) =
      .error (.unclosedFrontmatter 1) := rfl
  rw [hopen] at hparts
  contradiction

end ContrastAudit.Markup.Frontmatter
