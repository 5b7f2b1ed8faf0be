import Mathlib.Data.List.Infix
import Mathlib.Data.List.TakeWhile
import Mathlib.Data.Nat.Notation
import Mathlib.Tactic.Common

/-!
# The nesting of a KDL document

`check_source_depth` of `oxiroute-config-source/src/kdl.rs` counts braces before the recursive
parser is called. It goes over bytes; those of a character beyond ASCII are never special, so a text
is a list of characters here.

* `pass` is where the scan goes on behind a character, `past` where a reader of KDL 2 does.
* `Opens`: how many blocks are open at some point of the text, as KDL 2 reads it.
* `checkSourceDepth_sound`: never more than the limit, in a text that is accepted and `Plain`.
* `checkSourceDepth_misses`: a text with a slashdash, in which there are.
-/

namespace Oxiroute.Config.Kdl

open List

abbrev Text := List Char

def maxStructuralDepth : ℕ := 128

/-! ## The scan -/

/-- Goes over a text up to where `stop` finds its end. -/
def skipUntil (stop : Text → Option Text) : Text → Text
  | [] => []
  | c :: text => (stop (c :: text)).getD (skipUntil stop text)

/-- `skip_quoted` behind a single quote. -/
def skipString : Text → Text
  | [] => []
  | ['\\'] => []
  | '\\' :: _ :: text => skipString text
  | '"' :: text => text
  | _ :: text => skipString text

/-- `skip_quoted`, behind the first quote. -/
def skipQuoted : Text → Text
  | '"' :: '"' :: text => skipUntil (isPrefixOf? ['"', '"', '"']) text
  | text => skipString text

def skipRawString (hashes : ℕ) : Text → Text :=
  skipUntil (isPrefixOf? ('"' :: replicate hashes '#'))

def skipLine : Text → Text := dropWhile (· ≠ '\n')

def skipBlockComment : Text → Text := skipUntil (isPrefixOf? ['*', '/'])

/-- The hashes at the beginning of a text, one more in front of them, and the text behind them. -/
def hashes (text : Text) : ℕ × Text :=
  ((text.takeWhile (· = '#')).length + 1, text.dropWhile (· = '#'))

/-- Where `check_source_depth` goes on behind a character. -/
def pass : Char → Text → Text
  | '"', text => skipQuoted text
  | '#', text =>
    match hashes text with
    | (n, '"' :: body) => skipRawString n body
    | _ => text
  | '/', '/' :: text => skipLine text
  | '/', '*' :: text => skipBlockComment text
  | '/', '-' :: text => skipLine text
  | _, text => text

theorem skipUntil_suffix {pattern : Text} (text : Text) :
    skipUntil (isPrefixOf? pattern) text <:+ text := by
  induction text with
  | nil => exact suffix_refl _
  | cons c text ih =>
    rw [skipUntil]
    cases h : isPrefixOf? pattern (c :: text) with
    | none => exact ih.trans (suffix_cons _ _)
    | some rest => exact ⟨pattern, isPrefixOf?_eq_some_iff_append_eq.mp h⟩

theorem skipString_suffix (text : Text) : skipString text <:+ text := by
  fun_induction skipString text with
  | case1 => exact suffix_refl _
  | case2 => exact nil_suffix
  | case3 c text ih => exact ih.trans ((suffix_cons _ _).trans (suffix_cons _ _))
  | case4 text => exact suffix_cons _ _
  | case5 c text _ _ _ ih => exact ih.trans (suffix_cons _ _)

theorem pass_suffix (c : Char) (text : Text) : pass c text <:+ text := by
  unfold pass
  split
  · unfold skipQuoted
    split
    · exact (skipUntil_suffix _).trans ((suffix_cons _ _).trans (suffix_cons _ _))
    · exact skipString_suffix _
  · split
    · rename_i n body h
      have hbody := dropWhile_suffix (· = '#') (l := text)
      rw [(Prod.mk.inj h).2] at hbody
      exact (skipUntil_suffix _).trans ((suffix_cons _ _).trans hbody)
    · exact suffix_refl _
  · exact (dropWhile_suffix _).trans (suffix_cons _ _)
  · exact (skipUntil_suffix _).trans (suffix_cons _ _)
  · exact (dropWhile_suffix _).trans (suffix_cons _ _)
  · exact suffix_refl _

inductive ConfigSourceError where
  | structuralDepth

/-- `check_source_depth`, with the number of blocks that are open. -/
def checkSourceDepth (depth : ℕ) : Text → Except ConfigSourceError Unit
  | [] => .ok ()
  | '{' :: text =>
    if maxStructuralDepth < depth + 1 then .error .structuralDepth
    else checkSourceDepth (depth + 1) text
  | '}' :: text => checkSourceDepth (depth - 1) text
  | c :: text => checkSourceDepth depth (pass c text)
termination_by text => text.length
decreasing_by
  · exact Nat.lt_succ_self _
  · exact Nat.lt_succ_self _
  · exact Nat.lt_succ_of_le (pass_suffix c text).length_le

/-! ## The reading -/

/-- A multi-line string, behind its opening quotes. -/
def pastMultiline : Text → Text
  | [] => []
  | '"' :: '"' :: '"' :: text => text
  | '\\' :: _ :: text => pastMultiline text
  | _ :: text => pastMultiline text

def isNewline (c : Char) : Bool := c ∈ "\n\r\x0b\x0c\x85\u2028\u2029".toList

/-- A line comment, up to the newline that ends it. -/
def pastLine : Text → Text
  | [] => []
  | '\r' :: '\n' :: text => '\n' :: text
  | c :: text => if isNewline c then c :: text else pastLine text

/-- A block comment inside so many others. -/
def pastBlockComment : ℕ → Text → Text
  | _, [] => []
  | 0, '*' :: '/' :: text => text
  | n + 1, '*' :: '/' :: text => pastBlockComment n text
  | n, '/' :: '*' :: text => pastBlockComment (n + 1) text
  | n, _ :: text => pastBlockComment n text

def pastMultilineRaw (hashes : ℕ) : Text → Text :=
  skipUntil (isPrefixOf? ('"' :: '"' :: '"' :: replicate hashes '#'))

/-- Where a reader of KDL 2 goes on behind a character. What a slashdash disables is still read. -/
def past : Char → Text → Text
  | '"', '"' :: '"' :: text => pastMultiline text
  | '"', text => skipString text
  | '#', text =>
    match hashes text with
    | (n, '"' :: '"' :: '"' :: body) => pastMultilineRaw n body
    | (n, '"' :: body) => skipRawString n body
    | _ => text
  | '/', '/' :: text => pastLine text
  | '/', '*' :: text => pastBlockComment 0 text
  | _, text => text

/-- With so many blocks open in front of a text, `n` blocks are open at some point of it. -/
inductive Opens : ℕ → Text → ℕ → Prop
  | here {depth : ℕ} {text : Text} : Opens depth text depth
  | opened {depth n : ℕ} {text : Text} : Opens (depth + 1) text n → Opens depth ('{' :: text) n
  | closed {depth n : ℕ} {text : Text} : Opens (depth - 1) text n → Opens depth ('}' :: text) n
  | passed {depth n : ℕ} {c : Char} {text : Text} : c ≠ '{' → c ≠ '}' →
      Opens depth (past c text) n → Opens depth (c :: text) n

/-! ## Where they agree -/

/-- The reading goes from one text to a later part of it, and opens no block on the way. -/
inductive Reads : Text → Text → Prop
  | refl {text : Text} : Reads text text
  | char {c : Char} {text rest : Text} : c ≠ '{' → Reads (past c text) rest → Reads (c :: text) rest

/-- The scan goes from one text to a later part of it, and closes no block on the way. -/
inductive Scans : Text → Text → Prop
  | refl {text : Text} : Scans text text
  | char {c : Char} {text rest : Text} : c ≠ '}' → Scans (pass c text) rest → Scans (c :: text) rest

/-- Behind every character the two go on at the same place, or meet again before the reading has
opened a block there or the scan has closed one. What a slashdash or a comment hides from one of
them does no harm otherwise. -/
inductive Plain : Text → Prop
  | nil : Plain []
  | char {c : Char} {text rest : Text} : Reads (past c text) rest → Scans (pass c text) rest →
      Plain rest → Plain (c :: text)

section meeting

variable {text rest : Text} {depth n : ℕ}

theorem Opens.of_reads (hreads : Reads text rest) (h : Opens depth text n) :
    n ≤ depth ∨ ∃ depth' ≤ depth, Opens depth' rest n := by
  induction hreads generalizing depth with
  | refl => exact .inr ⟨depth, le_rfl, h⟩
  | char hc _ ih =>
    cases h with
    | here => exact .inl le_rfl
    | opened _ => exact absurd rfl hc
    | closed h => exact (ih h).imp (by omega) fun ⟨depth', hle, h⟩ => ⟨depth', by omega, h⟩
    | passed _ _ h => exact ih h

theorem Scans.accepts (hscans : Scans text rest) (h : checkSourceDepth depth text = .ok ())
    (hdepth : depth ≤ maxStructuralDepth) : ∃ depth', depth ≤ depth' ∧
      depth' ≤ maxStructuralDepth ∧ checkSourceDepth depth' rest = .ok () := by
  induction hscans generalizing depth with
  | refl => exact ⟨depth, le_rfl, hdepth, h⟩
  | @char c text rest hc _ ih =>
    by_cases hopen : c = '{'
    · subst hopen
      rw [checkSourceDepth] at h
      split at h
      · cases h
      · obtain ⟨depth', hle, h⟩ := ih h (by omega)
        exact ⟨depth', by omega, h⟩
    · rw [checkSourceDepth] at h
      · exact ih h hdepth
      · exact hopen
      · exact hc

/-- The scan never has fewer blocks open than the reading where they meet. -/
theorem Plain.opens_le (hplain : Plain text) : ∀ {depth scanned : ℕ},
    Opens depth text n → checkSourceDepth scanned text = .ok () → depth ≤ scanned →
      scanned ≤ maxStructuralDepth → n ≤ maxStructuralDepth := by
  induction hplain with
  | nil =>
    intro depth scanned hopens _ hle hmax
    cases hopens
    exact hle.trans hmax
  | @char c text rest hreads hscans _ ih =>
    intro depth scanned hopens hok hle hmax
    have hmeet : ∀ {depth scanned : ℕ}, Opens depth (past c text) n →
        checkSourceDepth scanned (pass c text) = .ok () → depth ≤ scanned →
          scanned ≤ maxStructuralDepth → n ≤ maxStructuralDepth := by
      intro depth scanned hopens hok hle hmax
      obtain ⟨scanned', hle', hmax', hok'⟩ := hscans.accepts hok hmax
      rcases hopens.of_reads hreads with hn | ⟨depth', hdepth, hopens⟩
      · exact hn.trans (hle.trans hmax)
      · exact ih hopens hok' (by omega) hmax'
    cases hopens with
    | here => exact hle.trans hmax
    | opened hopens =>
      rw [checkSourceDepth] at hok
      split at hok
      · cases hok
      · exact hmeet hopens hok (by omega) (by omega)
    | closed hopens =>
      rw [checkSourceDepth] at hok
      exact hmeet hopens hok (by omega) (by omega)
    | passed hopen hclose hopens =>
      rw [checkSourceDepth] at hok
      · exact hmeet hopens hok hle hmax
      · exact hopen
      · exact hclose

end meeting

/-- **The depth check** of a plain text: at no point of it are more blocks open than the limit. -/
theorem checkSourceDepth_sound {text : Text} (hplain : Plain text)
    (hok : checkSourceDepth 0 text = .ok ()) {n : ℕ} (hopens : Opens 0 text n) :
    n ≤ maxStructuralDepth :=
  hplain.opens_le hopens hok le_rfl (Nat.zero_le _)

/-- A document with a disabled node, a comment inside a comment and a node with children. -/
def document : Text :=
  ['/', '-', 'a', '\n', '/', '*', '/', '*', '*', '/', '*', '/', '\n', 'b', ' ',
    '{', '\n', '}', '\n']

theorem plain_document : Plain document :=
  -- the reading goes over the disabled node, and the scan over the end of the outer comment
  .char (.char (by decide) (.char (by decide) .refl)) .refl <| .char .refl .refl <|
    .char .refl (.char (by decide) (.char (by decide) .refl)) <| .char .refl .refl <|
      .char .refl .refl <| .char .refl .refl <| .char .refl .refl <| .char .refl .refl <|
        .char .refl .refl <| .char .refl .refl .nil

theorem checkSourceDepth_sound_document : checkSourceDepth 0 document = .ok () ∧
    ∀ n, Opens 0 document n → n ≤ maxStructuralDepth := by
  have hok : checkSourceDepth 0 document = .ok () := by
    simp [document, checkSourceDepth, pass, skipLine, skipBlockComment, skipUntil, isPrefixOf?,
      maxStructuralDepth]
  exact ⟨hok, fun n => checkSourceDepth_sound plain_document hok⟩

/-- So many nodes inside each other on one line, behind a slashdash. -/
def disabled (n : ℕ) : Text :=
  ['/', '-'] ++ (replicate n ['a', '{']).flatten ++ replicate n '}'

theorem opens_nodes {n : ℕ} {rest : Text} : ∀ depth,
    Opens depth ((replicate n ['a', '{']).flatten ++ rest) (depth + n) := by
  induction n with
  | zero => exact fun _ => .here
  | succ n ih =>
    intro depth
    rw [← Nat.add_assoc, Nat.add_right_comm]
    exact .passed (by decide) (by decide) (.opened (ih (depth + 1)))

theorem opens_disabled {n : ℕ} : Opens 0 (disabled n) n := by
  have hnodes : Opens 0 ((replicate n ['a', '{']).flatten ++ replicate n '}') (0 + n) :=
    opens_nodes 0
  rw [Nat.zero_add] at hnodes
  exact .passed (by decide) (by decide) (.passed (by decide) (by decide) hnodes)

theorem checkSourceDepth_disabled {n : ℕ} : checkSourceDepth 0 (disabled n) = .ok () := by
  have hline : skipLine ((replicate n ['a', '{']).flatten ++ replicate n '}') = [] := by
    refine dropWhile_eq_nil_iff.mpr fun c hc => ?_
    rcases mem_append.mp hc with hc | hc
    · obtain ⟨node, hnode, hc⟩ := mem_flatten.mp hc
      rw [eq_of_mem_replicate hnode] at hc
      rcases mem_pair.mp hc with rfl | rfl <;> decide
    · rw [eq_of_mem_replicate hc]
      decide
  have hpass : pass '/' ('-' :: ((replicate n ['a', '{']).flatten ++ replicate n '}')) = [] := hline
  change checkSourceDepth 0 ('/' :: '-' :: ((replicate n ['a', '{']).flatten ++
    replicate n '}')) = _
  rw [checkSourceDepth, hpass, checkSourceDepth] <;> decide

/-- The scan skips the line of a slashdash; the reading does not. -/
theorem checkSourceDepth_misses : checkSourceDepth 0 (disabled 129) = .ok () ∧
    ∃ n, maxStructuralDepth < n ∧ Opens 0 (disabled 129) n :=
  ⟨checkSourceDepth_disabled, 129, by decide, opens_disabled⟩

end Oxiroute.Config.Kdl
