/-
# Tokens of procedural SQL

`ProceduralLexer.tokenize` of `akaalEngine/schema/procedural/lexer.py`.  The loop stands at the first character of
what is left; a word may begin with `:`, which is no part of a word.

* `sound_scan`, `scan_colon` : what one turn passes over, and when it passes over nothing;
* `tokenize_covers_iff` : tokens cover the text exactly when the loop never stands at a stray `:`.

Which characters are letters and digits in Unicode is a parameter.
-/
import Akaal.PythonText

namespace ProceduralLexer

open PythonText (isSpace)

/-! ## Tokens -/

/-- `TokenType`. -/
inductive TokenType where
  | keyword | identifier | stringLiteral | numericLiteral | operator | delimiter | comment | whitespace | eof
  deriving DecidableEq

/-- `SourceLocation`. -/
structure SourceLocation where
  line : ℕ
  column : ℕ
  offset : ℕ
  deriving DecidableEq

/-- `Token`. -/
structure Token where
  tokenType : TokenType
  value : List Char
  location : SourceLocation
  deriving DecidableEq

/-- `str.isalpha`, `str.isdigit` and `str.isalnum` of one character. -/
structure CharacterClasses where
  isAlpha : Char → Bool
  isDigit : Char → Bool
  isAlnum : Char → Bool
  isAlnum_of_isAlpha : ∀ c, isAlpha c = true → isAlnum c = true
  isDigit_colon : isDigit ':' = false
  isAlnum_colon : isAlnum ':' = false

/-- `KEYWORDS`. -/
def keywords : List String :=
  ["CREATE", "OR", "REPLACE", "PROCEDURE", "FUNCTION", "PACKAGE", "BODY", "IS", "AS", "BEGIN", "END", "IF", "THEN",
    "ELSIF", "ELSE", "CASE", "WHEN", "LOOP", "WHILE", "FOR", "IN", "OUT", "INOUT", "OUTPUT", "RETURN", "DECLARE",
    "EXCEPTION", "RAISE", "CURSOR", "OPEN", "FETCH", "INTO", "CLOSE", "EXIT", "CONTINUE", "NULL", "SELECT",
    "INSERT", "UPDATE", "DELETE", "MERGE", "FROM", "WHERE", "AND", "NOT", "SET", "VALUES", "EXECUTE", "IMMEDIATE",
    "PRAGMA", "AUTONOMOUS_TRANSACTION", "TRY", "CATCH", "TRANSACTION", "COMMIT", "ROLLBACK"]

/-! ## One turn of the loop -/

/-- `line` and `col`. -/
structure Cursor where
  line : ℕ
  column : ℕ

/-- Columns are passed. -/
def Cursor.along (cursor : Cursor) (n : ℕ) : Cursor := ⟨cursor.line, cursor.column + n⟩

/-- Characters are passed, with their line breaks. -/
def Cursor.over (cursor : Cursor) (text : List Char) : Cursor :=
  text.foldl (fun cursor c => if c = '\n' then ⟨cursor.line + 1, 1⟩ else cursor.along 1) cursor

/-- What one turn passes over, and the token it appends. -/
structure Turn where
  token : Option (TokenType × List Char)
  size : ℕ
  move : Cursor → Cursor

/-- The characters before two that close a construct; all but the last without them. -/
def bodySize (first second : Char) : List Char → ℕ
  | c :: d :: cs => if c = first ∧ d = second then 0 else bodySize first second (d :: cs) + 1
  | _ => 0

/-- What a literal has behind its quote. -/
def literalSize : List Char → ℕ
  | [] => 0
  | '\'' :: '\'' :: cs => literalSize cs + 2
  | '\'' :: _ => 1
  | _ :: cs => literalSize cs + 1

/-- The character that closes an alternative quote. -/
def closeDelim (openDelim : Char) : Char :=
  if openDelim = '[' then ']'
  else if openDelim = '(' then ')'
  else if openDelim = '\x7b' then '\x7d'
  else if openDelim = '<' then '>'
  else openDelim

/-- A token of the next characters. -/
def Turn.next (sql : List Char) (tokenType : TokenType) (size : ℕ) (move : Cursor → Cursor) : Turn :=
  ⟨some (tokenType, sql.take size), size, move⟩

/-- A construct behind some opening characters that two characters close. -/
def Turn.enclosed (sql : List Char) (tokenType : TokenType) (opening : ℕ) (first second : Char) : Turn :=
  let body := bodySize first second (sql.drop opening)
  let closing := if 2 ≤ (sql.drop (opening + body)).length then 2 else 0
  .next sql tokenType (opening + body + closing) fun cursor =>
    ((cursor.along opening).over ((sql.drop opening).take body)).along closing

variable (classes : CharacterClasses)

/-- A character of a word behind its first one. -/
def isWordChar (c : Char) : Bool := classes.isAlnum c ∨ c ∈ ['_', '@', '$', '#', '%', '.']

/-- One turn of the loop. -/
def scan (sql : List Char) (c : Char) (cs : List Char) : Turn :=
  if isSpace c then ⟨none, 1, (·.over [c])⟩
  else if c = '-' ∧ cs.head? = some '-' then
    let size := (sql.takeWhile (· ≠ '\n')).length
    .next sql .comment size (·.along size)
  else if c = '/' ∧ cs.head? = some '*' then .enclosed sql .comment 2 '*' '/'
  else if (c = 'q' ∨ c = 'Q') ∧ 2 ≤ cs.length ∧ cs.head? = some '\'' then
    .enclosed sql .stringLiteral 3 (closeDelim (cs.getD 1 c)) '\''
  else if c = '\'' then
    let size := literalSize cs + 1
    .next sql .stringLiteral size (·.over (sql.take size))
  else if c ∈ ['"', '\x60', '['] then
    let closing := if c = '[' then ']' else c
    let size := min ((cs.takeWhile (· ≠ closing)).length + 1) cs.length + 1
    .next sql .identifier size (·.over (sql.take size))
  else if sql.take 2 ∈ [[':', '='], ['<', '='], ['>', '='], ['<', '>'], ['!', '='], ['|', '|'], ['.', '.']] then
    .next sql .operator 2 (·.along 2)
  else if classes.isDigit c then
    let size := (sql.takeWhile fun c => classes.isDigit c ∨ c = '.').length
    .next sql .numericLiteral size (·.along size)
  else if classes.isAlpha c ∨ c ∈ ['_', ':', '@', '$', '#', '%'] then
    let size := (sql.takeWhile (isWordChar classes)).length
    let upper := PythonText.upper (String.ofList (sql.take size))
    if upper ∈ keywords then ⟨some (.keyword, upper.toList), size, (·.along size)⟩
    else .next sql .identifier size (·.along size)
  else .next sql (if c ∈ [';', ',', '(', ')'] then .delimiter else .operator) 1 (·.along 1)

/-- The token of a turn, where the turn began. -/
def Turn.tokens (turn : Turn) (cursor : Cursor) (offset : ℕ) : List Token :=
  (turn.token.map fun t => ⟨t.1, t.2, cursor.line, cursor.column, offset⟩).toList

/-- The loop, from a position on, for a number of turns; `none` when these do not suffice. -/
def tokenizeFrom : ℕ → ℕ → Cursor → List Char → Option (List Token)
  | 0, _, _, _ => none
  | _ + 1, offset, cursor, [] => some [⟨.eof, [], cursor.line, cursor.column, offset⟩]
  | fuel + 1, offset, cursor, c :: cs =>
    let turn := scan classes (c :: cs) c cs
    (tokenizeFrom fuel (offset + turn.size) (turn.move cursor) ((c :: cs).drop turn.size)).map
      (turn.tokens cursor offset ++ ·)

/-- `tokenize`. -/
def tokenize (fuel : ℕ) (sql : String) : Option (List Token) := tokenizeFrom classes fuel 0 ⟨1, 1⟩ sql.toList

/-! ## The cover -/

/-- A token stands for a part of the text. -/
def Token.Reads (t : Token) (text : List Char) : Prop :=
  t.value = text ∨ t.tokenType = .keyword ∧ t.value = (PythonText.upper (String.ofList text)).toList

/-- Tokens cover a text that begins at an offset, up to white space, and the last one stands at its end. -/
inductive Covers : ℕ → List Char → List Token → Prop
  | eof (offset line column : ℕ) : Covers offset [] [⟨.eof, [], line, column, offset⟩]
  | space {offset : ℕ} {c : Char} {cs : List Char} {ts : List Token} (hc : isSpace c = true)
    (h : Covers (offset + 1) cs ts) : Covers offset (c :: cs) ts
  | token {text rest : List Char} {t : Token} {ts : List Token} (htext : text ≠ []) (hreads : t.Reads text)
    (h : Covers (t.location.offset + text.length) rest ts) : Covers t.location.offset (text ++ rest) (t :: ts)

/-- A `:` that does not begin an assignment. -/
def Stray (sql : List Char) : Prop := sql.head? = some ':' ∧ sql.tail.head? ≠ some '='

/-- What is left at a position the loop comes to. -/
inductive Left (sql : List Char) : List Char → Prop
  | start : Left sql sql
  | turn {c : Char} {cs : List Char} (h : Left sql (c :: cs)) :
    Left sql ((c :: cs).drop (scan classes (c :: cs) c cs).size)

/-! ## One turn -/

/-- A turn passes over a part of what is left, which is white space or what the token stands for. -/
structure Turn.Sound (turn : Turn) (sql : List Char) : Prop where
  pos : 0 < turn.size
  le : turn.size ≤ sql.length
  space : turn.token = none → turn.size = 1 ∧ ∀ c ∈ sql.head?, isSpace c = true
  reads : ∀ t ∈ turn.token, ∀ location, (⟨t.1, t.2, location⟩ : Token).Reads (sql.take turn.size)

variable {classes} {sql cs : List Char} {c : Char} {move : Cursor → Cursor}

theorem Turn.sound_next {tokenType : TokenType} {size : ℕ} (hpos : 0 < size) (hle : size ≤ sql.length) :
    (Turn.next sql tokenType size move).Sound sql where
  pos := hpos
  le := hle
  space h := by cases h
  reads t ht location := by
    cases ht
    exact .inl rfl

theorem Turn.sound_keyword {size : ℕ} {value : List Char} (hpos : 0 < size) (hle : size ≤ sql.length)
    (hvalue : value = (PythonText.upper (String.ofList (sql.take size))).toList) :
    (Turn.mk (some (.keyword, value)) size move).Sound sql where
  pos := hpos
  le := hle
  space h := by cases h
  reads t ht location := by
    cases ht
    exact .inr ⟨rfl, hvalue⟩

theorem Turn.sound_ite {p : Prop} [Decidable p] {turn turn' : Turn} (h : p → turn.Sound sql)
    (h' : ¬ p → turn'.Sound sql) : (if p then turn else turn').Sound sql := by
  split_ifs with hp
  · exact h hp
  · exact h' hp

theorem bodySize_le (first second : Char) (text : List Char) : bodySize first second text ≤ text.length := by
  induction text with
  | nil => exact le_rfl
  | cons c text ih =>
    cases text with
    | nil => exact Nat.zero_le _
    | cons d cs =>
      rw [bodySize]
      split_ifs
      · exact Nat.zero_le _
      · exact Nat.succ_le_succ ih

theorem literalSize_le (text : List Char) : literalSize text ≤ text.length := by
  fun_induction literalSize text with
  | case1 => exact le_rfl
  | case2 cs ih => exact Nat.add_le_add_right ih 2
  | case3 cs h => exact Nat.le_add_left 1 _
  | case4 c cs h h' ih => exact Nat.succ_le_succ ih

theorem Turn.sound_enclosed {tokenType : TokenType} {opening : ℕ} {first second : Char} (hpos : 0 < opening)
    (hle : opening ≤ sql.length) : (Turn.enclosed sql tokenType opening first second).Sound sql := by
  have hbody := bodySize_le first second (sql.drop opening)
  rw [List.length_drop] at hbody
  refine sound_next (by omega) ?_
  rw [List.length_drop]
  split_ifs <;> omega

theorem length_takeWhile_pos {p : Char → Bool} (hc : p c = true) : 0 < ((c :: cs).takeWhile p).length := by
  rw [List.takeWhile_cons_of_pos hc]
  exact Nat.succ_pos _

/-- **One turn** that does not begin at a `:`. -/
theorem sound_scan (hc : c ≠ ':') : (scan classes (c :: cs) c cs).Sound (c :: cs) := by
  have hwhile : ∀ p : Char → Bool, ((c :: cs).takeWhile p).length ≤ (c :: cs).length := fun p =>
    (List.takeWhile_prefix p).length_le
  unfold scan
  refine Turn.sound_ite (fun hspace => ?_) fun _ => ?_
  · refine ⟨Nat.one_pos, Nat.succ_le_succ (Nat.zero_le _), fun _ => ⟨rfl, fun d hd => ?_⟩, fun t ht => by cases ht⟩
    cases hd
    exact hspace
  refine Turn.sound_ite (fun hdash => ?_) fun _ => ?_
  · refine Turn.sound_next (length_takeWhile_pos ?_) (hwhile _)
    rw [hdash.1]
    rfl
  refine Turn.sound_ite (fun hblock => ?_) fun _ => ?_
  · refine Turn.sound_enclosed Nat.two_pos ?_
    cases cs with
    | nil => cases hblock.2
    | cons d cs => exact Nat.le_add_left 2 _
  refine Turn.sound_ite (fun hquote => Turn.sound_enclosed (Nat.succ_pos 2) (Nat.succ_le_succ hquote.2.1)) fun _ => ?_
  refine Turn.sound_ite (fun _ => Turn.sound_next (Nat.succ_pos _) (Nat.succ_le_succ (literalSize_le cs))) fun _ => ?_
  refine Turn.sound_ite (fun _ => Turn.sound_next (Nat.succ_pos _) (Nat.succ_le_succ (min_le_right _ _))) fun _ => ?_
  refine Turn.sound_ite (fun hoperator => ?_) fun _ => ?_
  · refine Turn.sound_next Nat.two_pos ?_
    cases cs with
    | nil => simp at hoperator
    | cons d cs => exact Nat.le_add_left 2 _
  refine Turn.sound_ite (fun hdigit => ?_) fun _ => ?_
  · exact Turn.sound_next (length_takeWhile_pos (by simp [hdigit])) (hwhile _)
  refine Turn.sound_ite (fun hword => ?_) fun _ => ?_
  · have hpos : 0 < ((c :: cs).takeWhile (isWordChar classes)).length := by
      refine length_takeWhile_pos (decide_eq_true (hword.imp (classes.isAlnum_of_isAlpha c) fun hmem => ?_))
      simp only [List.mem_cons, List.not_mem_nil, or_false, hc, false_or] at hmem ⊢
      rcases hmem with h | h | h | h | h <;> simp [h]
    exact Turn.sound_ite (fun _ => Turn.sound_keyword hpos (hwhile _) rfl) fun _ => Turn.sound_next hpos (hwhile _)
  · exact Turn.sound_next Nat.one_pos (Nat.succ_le_succ (Nat.zero_le _))

/-- **One turn** that begins at a `:`. -/
theorem scan_colon (cs : List Char) : scan classes (':' :: cs) ':' cs =
    if cs.head? = some '=' then .next (':' :: cs) .operator 2 (·.along 2)
    else .next (':' :: cs) .identifier 0 (·.along 0) := by
  have hword : (':' :: cs).takeWhile (isWordChar classes) = [] :=
    List.takeWhile_cons_of_neg (by simp [isWordChar, classes.isAlnum_colon])
  have hoperator : List.take 2 (':' :: cs) ∈ [[':', '='], ['<', '='], ['>', '='], ['<', '>'], ['!', '='],
      ['|', '|'], ['.', '.']] ↔ cs.head? = some '=' := by
    cases cs <;> simp
  have hdigit : ¬ classes.isDigit ':' = true := by simp [classes.isDigit_colon]
  have hkeyword : PythonText.upper (String.ofList []) ∉ keywords := by decide
  unfold scan
  rw [if_neg (by decide), if_neg fun h => absurd h.1 (by decide), if_neg fun h => absurd h.1 (by decide),
    if_neg fun h => absurd h.1 (by decide), if_neg (by decide), if_neg (by decide)]
  simp only [hoperator]
  refine if_congr Iff.rfl rfl ?_
  rw [if_neg hdigit, if_pos (.inr (by decide)), hword]
  exact if_neg hkeyword

/-! ## The loop -/

/-- At a stray `:` the loop stays. -/
theorem tokenizeFrom_of_stray (h : Stray sql) (fuel offset : ℕ) (cursor : Cursor) :
    tokenizeFrom classes fuel offset cursor sql = none := by
  obtain ⟨c, cs, rfl⟩ : ∃ c cs, sql = c :: cs := List.exists_cons_of_ne_nil fun hnil => by
    rw [hnil] at h
    cases h.1
  obtain rfl : c = ':' := Option.some.inj h.1
  induction fuel generalizing offset cursor with
  | zero => rfl
  | succ fuel ih =>
    have hne : ¬ cs.head? = some '=' := h.2
    rw [tokenizeFrom, scan_colon, if_neg hne]
    exact Option.map_eq_none_iff.mpr (ih _ _)

theorem sound_scan_of_not_stray (h : ¬ Stray (c :: cs)) : (scan classes (c :: cs) c cs).Sound (c :: cs) := by
  by_cases hc : c = ':'
  · subst hc
    have hassign : cs.head? = some '=' := by
      by_contra hne
      exact h ⟨rfl, hne⟩
    rw [scan_colon, if_pos hassign]
    refine Turn.sound_next Nat.two_pos ?_
    cases cs with
    | nil => cases hassign
    | cons d cs => exact Nat.le_add_left 2 _
  · exact sound_scan hc

theorem Left.trans {a b d : List Char} (h : Left classes a b) (h' : Left classes b d) : Left classes a d := by
  induction h' with
  | start => exact h
  | turn _ ih => exact .turn ih

/-- A text in which the loop stands at no stray `:` is passed over, and its tokens cover it. -/
theorem exists_tokenizeFrom (sql : List Char) (h : ∀ rest, Left classes sql rest → ¬ Stray rest) (offset : ℕ)
    (cursor : Cursor) : ∃ ts, (∀ fuel, sql.length < fuel → tokenizeFrom classes fuel offset cursor sql = some ts) ∧
      Covers offset sql ts := by
  induction hn : sql.length using Nat.strong_induction_on generalizing sql offset cursor with
  | _ n ih =>
  cases sql with
  | nil =>
    refine ⟨_, fun fuel hfuel => ?_, .eof offset cursor.line cursor.column⟩
    obtain ⟨fuel, rfl⟩ := Nat.exists_eq_succ_of_ne_zero (Nat.ne_zero_of_lt hfuel)
    rfl
  | cons c cs =>
    have hsound : (scan classes (c :: cs) c cs).Sound (c :: cs) := sound_scan_of_not_stray (h _ .start)
    set turn := scan classes (c :: cs) c cs with hturn
    have hpos := hsound.pos
    have hle := hsound.le
    have hsize : ((c :: cs).take turn.size).length = turn.size := List.length_take_of_le hle
    have hshort : ((c :: cs).drop turn.size).length < n := by
      rw [List.length_drop]
      omega
    obtain ⟨ts, hreturns, hcovers⟩ := ih _ hshort _
      (fun rest hrest => h rest (Left.trans (.turn .start) hrest)) (offset + turn.size) (turn.move cursor) rfl
    refine ⟨turn.tokens cursor offset ++ ts, fun fuel hfuel => ?_, ?_⟩
    · obtain ⟨fuel, rfl⟩ := Nat.exists_eq_succ_of_ne_zero (Nat.ne_zero_of_lt hfuel)
      rw [tokenizeFrom, ← hturn, hreturns fuel (by omega), Option.map_some]
    · rw [Turn.tokens]
      cases htoken : turn.token with
      | none =>
        obtain ⟨hone, hspace⟩ := hsound.space htoken
        rw [hone] at hcovers
        exact .space (hspace c rfl) hcovers
      | some t =>
        rw [← List.take_append_drop turn.size (c :: cs)]
        refine Covers.token (t := ⟨t.1, t.2, cursor.line, cursor.column, offset⟩)
          (List.ne_nil_of_length_pos (hpos.trans_eq hsize.symm)) (hsound.reads t htoken _) ?_
        rwa [hsize]

/-- When tokens are returned, they are from every position the loop comes to. -/
theorem exists_tokenizeFrom_of_left {rest : List Char} (hrest : Left classes sql rest) {fuel offset : ℕ}
    {cursor : Cursor} {ts : List Token} (h : tokenizeFrom classes fuel offset cursor sql = some ts) :
    ∃ fuel' offset' cursor' ts', tokenizeFrom classes fuel' offset' cursor' rest = some ts' := by
  induction hrest with
  | start => exact ⟨_, _, _, _, h⟩
  | turn _ ih =>
    obtain ⟨fuel', offset', cursor', ts', h'⟩ := ih
    cases fuel' with
    | zero => cases h'
    | succ fuel' =>
      obtain ⟨ts'', hrest, -⟩ := Option.map_eq_some_iff.mp h'
      exact ⟨_, _, _, _, hrest⟩

/-- The tokens of a cover stand one behind the other. -/
theorem Covers.sorted {offset : ℕ} {text : List Char} {ts : List Token} (h : Covers offset text ts) :
    (∀ t ∈ ts, offset ≤ t.location.offset) ∧ ts.Pairwise fun t t' => t.location.offset < t'.location.offset := by
  induction h with
  | eof offset line column => exact ⟨List.forall_mem_singleton.mpr le_rfl, List.pairwise_singleton _ _⟩
  | space hc h ih => exact ⟨fun t ht => Nat.le_of_succ_le (ih.1 t ht), ih.2⟩
  | token htext hreads h ih =>
    have hpos := List.length_pos_iff.mpr htext
    have hless := fun t ht => (Nat.lt_add_of_pos_right hpos).trans_le (ih.1 t ht)
    exact ⟨List.forall_mem_cons.mpr ⟨le_rfl, fun t ht => (hless t ht).le⟩, List.pairwise_cons.mpr ⟨hless, ih.2⟩⟩

/-- **The tokens cover the text.**  Tokens are returned, one behind the other and covering the text, exactly when
the loop stands at no `:` that does not begin an assignment. -/
theorem tokenize_covers_iff (classes : CharacterClasses) (sql : String) :
    (∃ fuel ts, (∀ fuel' ≥ fuel, tokenize classes fuel' sql = some ts) ∧ Covers 0 sql.toList ts ∧
      ts.Pairwise fun t t' => t.location.offset < t'.location.offset) ↔
      ∀ rest, Left classes sql.toList rest → ¬ Stray rest := by
  constructor
  · rintro ⟨fuel, ts, hreturns, -⟩ rest hrest hstray
    obtain ⟨fuel', offset, cursor, ts', h⟩ := exists_tokenizeFrom_of_left hrest (hreturns fuel le_rfl)
    rw [tokenizeFrom_of_stray hstray] at h
    cases h
  · intro h
    obtain ⟨ts, hreturns, hcovers⟩ := exists_tokenizeFrom sql.toList h 0 ⟨1, 1⟩
    exact ⟨_, ts, fun fuel' hfuel => hreturns fuel' hfuel, hcovers, hcovers.sorted.2⟩

/-- The letters and digits of ASCII. -/
def asciiClasses : CharacterClasses where
  isAlpha := Char.isAlpha
  isDigit := Char.isDigit
  isAlnum := Char.isAlphanum
  isAlnum_of_isAlpha c h := by simp [Char.isAlphanum, h]
  isDigit_colon := rfl
  isAlnum_colon := rfl

/-- No tokens are returned for a bind variable. -/
theorem tokenize_bindVariable : ¬ ∃ fuel ts, tokenize asciiClasses fuel ":NEW" = some ts := by
  rintro ⟨fuel, ts, h⟩
  have hstray : Stray ":NEW".toList := ⟨rfl, by decide⟩
  rw [tokenize, tokenizeFrom_of_stray hstray] at h
  cases h

end ProceduralLexer
