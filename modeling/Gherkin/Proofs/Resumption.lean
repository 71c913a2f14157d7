import Gherkin.Proofs.Lockstep
import Gherkin.Proofs.Passages

/-!
# Reading goes on where it stopped

What a scanner makes of a line depends on the lines above it only through their number
and the fence that is open behind them.  So the tokens of a document begin with those of
its first lines, whatever follows, and the lines behind are read as if the first ones
had not been there, with other numbers.  The tokens above a line tell whether a fence is
open: outside doc strings the fences come in pairs, and inside one the last fence has
nothing but content behind it.
-/

namespace Gherkin

namespace Scanner

variable {keywords : KeywordTable} {read : Nat} {opened? : Option OpenFence}

/-- The fence that is open behind the given lines. -/
def openedBehind (keywords : KeywordTable) :
    (read : Nat) → (opened? : Option OpenFence) → List Text → Option OpenFence
  | _, opened?, [] => opened?
  | read, opened?, line :: lines =>
      openedBehind keywords (read + 1)
        (OpenFence.readLine keywords (read + 1) opened? line).2 lines

/-- A scan ends in a doc string if a fence is open behind its lines. -/
theorem fault?_scanLines (keywords : KeywordTable) (read : Nat)
    (opened? : Option OpenFence) (lines : List Text) :
    (scanLines keywords read opened? lines).fault? =
      (openedBehind keywords read opened? lines).map OpenFence.diagnostic := by
  induction lines generalizing read opened? with
  | nil => rfl
  | cons line lines ih => exact ih _ _

theorem openedBehind_append (keywords : KeywordTable) (read : Nat)
    (opened? : Option OpenFence) (front back : List Text) :
    openedBehind keywords read opened? (front ++ back) =
      openedBehind keywords (read + front.length)
        (openedBehind keywords read opened? front) back := by
  induction front generalizing read opened? with
  | nil => rfl
  | cons line front ih =>
      rw [List.cons_append, openedBehind, ih, openedBehind, List.length_cons,
        Nat.add_right_comm, Nat.add_assoc]

/-- The lines behind are scanned from their number and the open fence on. -/
theorem scanLines_append (keywords : KeywordTable) (read : Nat)
    (opened? : Option OpenFence) (front back : List Text) :
    scanLines keywords read opened? (front ++ back) =
      (scanLines keywords (read + front.length)
        (openedBehind keywords read opened? front) back).prepend
          (scanLines keywords read opened? front).tokens := by
  induction front generalizing read opened? with
  | nil => rfl
  | cons line front ih =>
      have hread : OpenFence.readLine keywords (read + 1) opened? line =
          (_, (OpenFence.readLine keywords (read + 1) opened? line).2) := rfl
      rw [List.cons_append, scanLines_cons hread, ih, Scan.prepend_prepend,
        scanLines_cons hread, openedBehind, List.length_cons, Nat.add_right_comm,
        Nat.add_assoc]
      rfl

theorem length_tokens_scanLines (keywords : KeywordTable) (read : Nat)
    (opened? : Option OpenFence) (lines : List Text) :
    (scanLines keywords read opened? lines).tokens.length = lines.length := by
  have hlines := congrArg List.length (map_line_scanLines keywords read opened? lines)
  rwa [List.length_map, List.length_range'] at hlines

/-- The first tokens are those of the first lines. -/
theorem take_tokens_scanLines (keywords : KeywordTable) (read : Nat)
    (opened? : Option OpenFence) (lines : List Text) (count : Nat) :
    (scanLines keywords read opened? lines).tokens.take count =
      (scanLines keywords read opened? (lines.take count)).tokens := by
  rcases Nat.le_total lines.length count with hcount | hcount
  · rw [List.take_of_length_le hcount, List.take_of_length_le]
    rwa [length_tokens_scanLines]
  · have hsplit := scanLines_append keywords read opened? (lines.take count)
      (lines.drop count)
    have hlength := length_tokens_scanLines keywords read opened? (lines.take count)
    rw [List.length_take_of_le hcount] at hlength
    rw [List.take_append_drop] at hsplit
    rw [hsplit, Scan.prepend, List.take_left' hlength]

end Scanner

/-! ## What the tokens tell of the open fence -/

/-- In the tokens of the lines read so far every fence has its partner, up to the one
that is open. -/
inductive Brackets : List Token → Option OpenFence → Prop
  | closed {tokens : List Token} {docs : List DocString}
      (hdocs : DocStrings tokens docs) : Brackets tokens none
  | opened {front back : List Token} {docs : List DocString} {doc : OpenDoc}
      (hdocs : DocStrings front docs) (hspans : doc.Spans back) :
      Brackets (front ++ back) (some doc.openFence)

/-- One more token opens a fence or closes the one that is open, or does neither. -/
theorem Brackets.concat {tokens : List Token} {token : Token}
    {opened? after? : Option OpenFence} (hbrackets : Brackets tokens opened?)
    (hreads : OpenFence.Reads token.line opened? token.kind after?) :
    Brackets (tokens ++ [token]) after? := by
  rcases token with ⟨number, kind⟩
  cases hreads with
  | closing hfence =>
      cases hbrackets with
      | opened hdocs hspans =>
          rw [List.append_assoc]
          exact .closed (hdocs.append (hspans.close hfence))
  | @content _ text =>
      cases hbrackets with
      | opened hdocs hspans =>
          -- Content leaves the fence of its doc string as it is.
          have hopened := Brackets.opened hdocs (hspans.push number text)
          rw [List.append_assoc]
          exact hopened
  | opening =>
      cases hbrackets with
      | closed hdocs => exact .opened hdocs (OpenDoc.spans_opening _ _)
  | outside hfence hcontent =>
      cases hbrackets with
      | closed hdocs =>
          refine .closed (hdocs.concat hfence fun hkind => ?_)
          obtain ⟨text, htext⟩ := LineKind.isContent_iff.mp hkind
          exact hcontent text htext

theorem Brackets.of_scanLines {keywords : KeywordTable} {lines : List Text} :
    Brackets (Scanner.scanLines keywords 0 none lines).tokens
      (Scanner.openedBehind keywords 0 none lines) := by
  induction lines using List.reverseRecOn with
  | nil => exact .closed .nil
  | append_singleton lines line ih =>
      rw [Scanner.openedBehind_append, Scanner.scanLines_append]
      exact ih.concat (OpenFence.reads_readLine _ _ _ _)

/-! ## Runs over the first lines -/

/-- The last line of an assembly that has taken all tokens is the last line there is. -/
theorem Assembly.lastLine_of_feedAll {keywords : KeywordTable} {read : Nat}
    {opened? : Option OpenFence} {lines : List Text} {assembly final : Assembly}
    (hrun : assembly.feedAll (Scanner.scanLines keywords read opened? lines).tokens =
      .ok final)
    (hread : assembly.lastLine = read) : final.lastLine = read + lines.length := by
  induction lines generalizing read opened? assembly with
  | nil => rw [← Except.ok.inj hrun, hread, List.length_nil, Nat.add_zero]
  | cons line lines ih =>
      obtain ⟨next, hmove, hrun⟩ := feedAll_cons_eq_ok_iff.mp hrun
      rw [ih hrun hmove.lastLine_eq, List.length_cons, Nat.add_assoc, Nat.add_comm 1]

variable {config : Config} {uri document : Text}

/-- Reading passes the point behind the lines whose tokens are accepted. -/
theorem Passes.of_feedAll {keywords : KeywordTable} {lines : List Text} {read : Nat}
    {opened? : Option OpenFence} {assembly final : Assembly}
    (hpasses : Passes config uri document ⟨keywords, lines, read, opened?⟩ assembly)
    (hrun : assembly.feedAll (Scanner.scanLines keywords read opened? lines).tokens =
      .ok final) :
    Passes config uri document
      ⟨keywords, [], read + lines.length,
        Scanner.openedBehind keywords read opened? lines⟩ final := by
  induction lines generalizing read opened? assembly with
  | nil => exact Except.ok.inj hrun ▸ hpasses
  | cons line lines ih =>
      obtain ⟨next, hmove, hrun⟩ := Assembly.feedAll_cons_eq_ok_iff.mp hrun
      have hfinal :=
        ih (hpasses.step rfl (Assembly.feed_eq_accepted_iff.mpr hmove)) hrun
      rw [List.length_cons, Nat.add_comm lines.length, ← Nat.add_assoc]
      exact hfinal

/-- Where all tokens are accepted and no fence is left open, no doc string is. -/
theorem lockstep_of_feedAll {final : Assembly}
    (hrun : (Assembly.start uri config.trailingComments).feedAll
      (scan config.keywords document).tokens = .ok final)
    (hfault : (scan config.keywords document).fault? = none) :
    ∃ scanner, scanner.opened? = none ∧ Lockstep scanner final := by
  rw [scan_eq_scanLines, Scanner.fault?_scanLines, Option.map_eq_none_iff] at hfault
  have hpasses : Passes config uri document _ _ := .start
  exact ⟨_, hfault, (hpasses.of_feedAll hrun).lockstep⟩

end Gherkin
