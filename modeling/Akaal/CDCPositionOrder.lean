/-
# The order of the source positions

`<`, `<=`, `==` and `>` of the position classes of `cdc/domain/positions.py` are defined from
three different things: the number of a PostgreSQL position, `is_after`, and the printed text.
They are a total order on a set of positions of one kind exactly when these agree on the set.

* `orderedOn_iff` : when the operators are a total order on a set;
* `positionOrder_postgres` and the others : they then compare keys of a linear order;
* `not_ordered_of_padded_lsn` : two spellings of one LSN are neither before, nor equal to, nor
  after each other.
-/
import Akaal.CDCFrontier
import Akaal.DelimitedText

open DelimitedText FramedBytes

namespace CDC

namespace CDCSourcePosition

/-! ## What a total order is -/

/-- Positions of one class, of one table or query where the class checks it, and of one engine
where the class has several. -/
def SameKind : CDCSourcePosition → CDCSourcePosition → Prop
  | postgres _, postgres _ => True
  | mysql _, mysql _ => True
  | oracle _, oracle _ => True
  | mssql _, mssql _ => True
  | mongodb _, mongodb _ => True
  | mariadb _, mariadb _ => True
  | delta a, delta b => a.tableName = b.tableName
  | warehouse a, warehouse b => a.engine = b.engine ∧ a.queryId = b.queryId
  | _, _ => False

/-- The operators on three positions: exactly one of `a < b`, `a == b`, `a > b` holds, `a <= b`
is `a < b` or `a == b`, and `<` is transitive. -/
structure Ordered (a b c : CDCSourcePosition) : Prop where
  trichotomy : (a.lt b = .ok true ∧ a.eq b = false ∧ a.gt b = .ok false) ∨
    (a.lt b = .ok false ∧ a.eq b = true ∧ a.gt b = .ok false) ∨
    (a.lt b = .ok false ∧ a.eq b = false ∧ a.gt b = .ok true)
  le : a.le b = .ok true ↔ a.lt b = .ok true ∨ a.eq b = true
  trans : a.lt b = .ok true → b.lt c = .ok true → a.lt c = .ok true

/-- The operators are a total order on the positions of a set. -/
def OrderedOn (S : Set CDCSourcePosition) : Prop :=
  ∀ a ∈ S, ∀ b ∈ S, ∀ c ∈ S, Ordered a b c

/-! ## The condition -/

/-- What is compared and what is printed agree on two positions.  A PostgreSQL number has one
spelling; a MySQL position and an SQL Server position print the same precisely when the compared
parts are the same; two MariaDB positions are only tied when they are the same. -/
def Distinguished : CDCSourcePosition → CDCSourcePosition → Prop
  | postgres a, postgres b => a.numericVal = b.numericVal → a.lsn = b.lsn
  | mysql a, mysql b =>
    (mysql a).toText = (mysql b).toText ↔ a.binlogFile = b.binlogFile ∧ a.binlogPos = b.binlogPos
  | mssql a, mssql b =>
    (mssql a).toText = (mssql b).toText → a.lsnHex = b.lsnHex ∧ a.seqvalHex = b.seqvalHex
  | mariadb a, mariadb b =>
    a.sequenceNo = b.sequenceNo →
      ((a.domainId = b.domainId ∧ a.serverId = b.serverId) ∨ a.binlogPos = b.binlogPos) → a = b
  | _, _ => True

/-! ## Printed texts -/

theorem intText_separate {z w : ℤ} {c : Char} {x y : List Char} (hsign : c ≠ '-')
    (hdigit : c.isDigit = false)
    (h : (intText z).toList ++ c :: x = (intText w).toList ++ c :: y) : z = w ∧ x = y := by
  obtain ⟨hzw, hxy⟩ :=
    separate_left (not_mem_intText hsign hdigit) (not_mem_intText hsign hdigit) h
  exact ⟨intText_injective (String.toList_injective hzw), hxy⟩

theorem toText_oracle_iff {a b : OracleSCNPosition} :
    (oracle a).toText = (oracle b).toText ↔ a.scn = b.scn ∧ a.sequenceNumber = b.sequenceNumber := by
  constructor
  · intro h
    have hlist := congrArg String.toList h
    simp only [toText, String.toList_append] at hlist
    simp only [List.append_assoc, List.append_cancel_left_eq] at hlist
    obtain ⟨hscn, hrest⟩ := intText_separate (c := '#') (by decide) (by decide) hlist
    refine ⟨hscn, intText_injective (String.toList_injective ?_)⟩
    simpa using hrest
  · rintro ⟨hscn, hseq⟩
    simp only [toText, hscn, hseq]

theorem toText_mongodb_iff {a b : MongoDBOpLogPosition} :
    (mongodb a).toText = (mongodb b).toText ↔ a.timestampSec = b.timestampSec ∧ a.inc = b.inc := by
  constructor
  · intro h
    have hlist := congrArg String.toList h
    simp only [toText, String.toList_append] at hlist
    simp only [List.append_assoc, List.append_cancel_left_eq] at hlist
    obtain ⟨hsec, hrest⟩ := intText_separate (c := ':') (by decide) (by decide) hlist
    refine ⟨hsec, intText_injective (String.toList_injective ?_)⟩
    simpa using hrest
  · rintro ⟨hsec, hinc⟩
    simp only [toText, hsec, hinc]

theorem toText_mariadb_iff {a b : MariaDBGTIDPosition} :
    (mariadb a).toText = (mariadb b).toText ↔ a = b := by
  constructor
  · intro h
    have hlist := congrArg String.toList h
    simp only [toText, String.toList_append] at hlist
    simp only [List.append_assoc] at hlist
    -- The numbers before the file are not negative, so the signs are separators.
    obtain ⟨hdomain, hlist⟩ := separate_left (c := '-') (sign_not_mem_intText a.domain_nonneg)
      (sign_not_mem_intText b.domain_nonneg) hlist
    obtain ⟨hserver, hlist⟩ := separate_left (c := '-') (sign_not_mem_intText a.server_nonneg)
      (sign_not_mem_intText b.server_nonneg) hlist
    obtain ⟨hsequence, hlist⟩ := intText_separate (c := '@') (by decide) (by decide) hlist
    obtain ⟨hfile, hpos⟩ := separate_right (c := ':')
      (not_mem_intText (z := a.binlogPos) (by decide) (by decide))
      (not_mem_intText (z := b.binlogPos) (by decide) (by decide)) hlist
    have hd := intText_injective (String.toList_injective hdomain)
    have hs := intText_injective (String.toList_injective hserver)
    have hp := intText_injective (String.toList_injective hpos)
    have hf := String.toList_injective hfile
    cases a
    cases b
    simp_all
  · rintro rfl
    rfl

theorem toText_delta_iff {a b : DeltaTableVersionPosition} (htable : a.tableName = b.tableName) :
    (delta a).toText = (delta b).toText ↔ a.tableVersion = b.tableVersion := by
  constructor
  · intro h
    have hlist := congrArg String.toList h
    simp only [toText, htable, String.toList_append] at hlist
    simp only [List.append_assoc, List.append_cancel_left_eq] at hlist
    exact intText_injective (String.toList_injective hlist)
  · intro h
    simp only [toText, htable, h]

theorem toText_warehouse_iff {a b : WarehouseQueryPosition} (hquery : a.queryId = b.queryId) :
    (warehouse a).toText = (warehouse b).toText ↔
      a.chunkIndex = b.chunkIndex ∧ a.rowOffset = b.rowOffset := by
  constructor
  · intro h
    have hlist := congrArg String.toList h
    simp only [toText, hquery, String.toList_append] at hlist
    simp only [List.append_assoc, List.append_cancel_left_eq] at hlist
    obtain ⟨hchunk, hrest⟩ := intText_separate (c := ':') (by decide) (by decide) hlist
    refine ⟨hchunk, intText_injective (String.toList_injective ?_)⟩
    simpa using hrest
  · rintro ⟨hchunk, hoffset⟩
    simp only [toText, hquery, hchunk, hoffset]

/-! ## Keys give a total order -/

section Keys

variable {S : Set CDCSourcePosition} {K : Type*} [LinearOrder K] {key : CDCSourcePosition → K}

theorem OrderedOn.of_positionOrder (hS : PositionOrder S key)
    (hengine : ∀ a ∈ S, ∀ b ∈ S, a.engine = b.engine) : OrderedOn S := by
  intro a ha b hb c hc
  have hlt := hS.lt a ha b hb
  have hgt := hS.gt a ha b hb
  have heq := hS.eq a ha b hb
  have htext : decide (a.toText = b.toText) = decide (key a = key b) := by
    rw [← heq, eq, hengine a ha b hb]
    simp
  refine ⟨?_, ?_, ?_⟩
  · rw [hlt, hgt, heq]
    rcases lt_trichotomy (key a) (key b) with h | h | h
    · exact .inl ⟨by simp [h], by simp [h.ne], by simp [h.le]⟩
    · exact .inr (.inl ⟨by simp [h], by simp [h], by simp [h]⟩)
    · exact .inr (.inr ⟨by simp [h.le], by simp [h.ne'], by simp [h]⟩)
  · rw [le, hlt, heq, ok_bind, htext]
    show Except.ok _ = Except.ok _ ↔ _
    simp
  · rw [hlt, hS.lt b hb c hc, hS.lt a ha c hc]
    simp only [Except.ok.injEq, decide_eq_true_eq]
    exact lt_trans

/-- In a class where `is_after` compares keys and the printed texts are the same for the same
keys, the operators compare keys. -/
theorem PositionOrder.of_isAfter {P : Type} {f : P → CDCSourcePosition} (hS : S ⊆ Set.range f)
    (hlt : ∀ a b, (f a).lt (f b) = do
      let after ← (f a).isAfter (f b)
      return !after && decide ((f a).toText ≠ (f b).toText))
    (hengine : ∀ a b, f a ∈ S → f b ∈ S → (f a).engine = (f b).engine)
    (hafter : ∀ a b, f a ∈ S → f b ∈ S → (f a).isAfter (f b) = .ok (decide (key (f b) < key (f a))))
    (htext : ∀ a b, f a ∈ S → f b ∈ S →
      ((f a).toText = (f b).toText ↔ key (f a) = key (f b))) : PositionOrder S key := by
  refine ⟨?_, ?_, ?_⟩
  · intro _ ha _ hb
    obtain ⟨a, rfl⟩ := hS ha
    obtain ⟨b, rfl⟩ := hS hb
    rw [hlt, hafter a b ha hb, ok_bind]
    show Except.ok _ = Except.ok _
    have hkeys := htext a b ha hb
    rcases lt_trichotomy (key (f a)) (key (f b)) with h | h | h
    · simp [h, h.le, h.ne, hkeys]
    · simp [h, hkeys]
    · simp [h, h.le]
  · intro _ ha _ hb
    obtain ⟨a, rfl⟩ := hS ha
    obtain ⟨b, rfl⟩ := hS hb
    exact hafter a b ha hb
  · intro _ ha _ hb
    obtain ⟨a, rfl⟩ := hS ha
    obtain ⟨b, rfl⟩ := hS hb
    rw [eq, hengine a b ha hb]
    simp [htext a b ha hb]

theorem decide_toLex_lt {α β : Type*} [LinearOrder α] [LinearOrder β] (x x' : α) (y y' : β) :
    (if x = x' then decide (y' < y) else decide (x' < x)) =
      decide (toLex (x', y') < toLex (x, y)) := by
  rw [Bool.eq_iff_iff, decide_eq_true_iff, Prod.Lex.toLex_lt_toLex]
  by_cases h : x = x'
  · simp [h]
  · simp [h, Ne.symm h]

end Keys

/-! ## The keys of the classes -/

/-- The key of a PostgreSQL position. -/
def postgresKey : CDCSourcePosition → ℤ
  | postgres p => p.numericVal
  | _ => 0

/-- The key of a MySQL position. -/
def mysqlKey : CDCSourcePosition → String ×ₗ ℤ
  | mysql p => toLex (p.binlogFile, p.binlogPos)
  | _ => toLex ("", 0)

/-- The key of an Oracle position. -/
def oracleKey : CDCSourcePosition → ℤ ×ₗ ℤ
  | oracle p => toLex (p.scn, p.sequenceNumber)
  | _ => toLex (0, 0)

/-- The key of an SQL Server position. -/
def mssqlKey : CDCSourcePosition → String ×ₗ String
  | mssql p => toLex (p.lsnHex, p.seqvalHex)
  | _ => toLex ("", "")

/-- The key of a MongoDB position. -/
def mongodbKey : CDCSourcePosition → ℤ ×ₗ ℤ
  | mongodb p => toLex (p.timestampSec, p.inc)
  | _ => toLex (0, 0)

/-- The key of a MariaDB position. -/
def mariadbKey : CDCSourcePosition → ℤ ×ₗ ℤ
  | mariadb p => toLex (p.sequenceNo, p.binlogPos)
  | _ => toLex (0, 0)

/-- The key of a position of a Delta table. -/
def deltaKey : CDCSourcePosition → ℤ
  | delta p => p.tableVersion
  | _ => 0

/-- The key of a position of a warehouse query. -/
def warehouseKey : CDCSourcePosition → ℤ ×ₗ ℤ
  | warehouse p => toLex (p.chunkIndex, p.rowOffset)
  | _ => toLex (0, 0)

section Classes

variable {S : Set CDCSourcePosition}

/-- PostgreSQL positions are totally ordered where a number has one spelling. -/
theorem positionOrder_postgres (hS : S ⊆ Set.range postgres)
    (hd : ∀ a ∈ S, ∀ b ∈ S, Distinguished a b) : PositionOrder S postgresKey := by
  refine ⟨?_, ?_, ?_⟩
  · intro _ ha _ hb
    obtain ⟨a, rfl⟩ := hS ha
    obtain ⟨b, rfl⟩ := hS hb
    rfl
  · intro _ ha _ hb
    obtain ⟨a, rfl⟩ := hS ha
    obtain ⟨b, rfl⟩ := hS hb
    rfl
  · intro _ ha _ hb
    have hspelling := hd _ ha _ hb
    obtain ⟨a, rfl⟩ := hS ha
    obtain ⟨b, rfl⟩ := hS hb
    have hnumber : a.lsn = b.lsn → a.numericVal = b.numericVal := by
      intro h
      have ha := a.numeric_eq
      rw [h, b.numeric_eq] at ha
      exact (Except.ok.inj ha).symm
    rw [Bool.eq_iff_iff, decide_eq_true_iff]
    have heq : (postgres a).eq (postgres b) = true ↔ a.lsn = b.lsn := by
      rw [eq, Bool.and_eq_true, decide_eq_true_iff, decide_eq_true_iff]
      exact ⟨fun h => h.2, fun h => ⟨rfl, h⟩⟩
    exact heq.trans ⟨hnumber, hspelling⟩

theorem positionOrder_mysql (hS : S ⊆ Set.range mysql)
    (hd : ∀ a ∈ S, ∀ b ∈ S, Distinguished a b) : PositionOrder S mysqlKey := by
  apply PositionOrder.of_isAfter hS
  · exact fun _ _ => rfl
  · exact fun _ _ _ _ => rfl
  · exact fun _ _ _ _ => congrArg Except.ok (decide_toLex_lt _ _ _ _)
  · intro a b ha hb
    have hparts : _ ↔ _ := hd _ ha _ hb
    simpa [mysqlKey] using hparts

theorem positionOrder_oracle (hS : S ⊆ Set.range oracle) : PositionOrder S oracleKey := by
  apply PositionOrder.of_isAfter hS
  · exact fun _ _ => rfl
  · exact fun _ _ _ _ => rfl
  · exact fun _ _ _ _ => congrArg Except.ok (decide_toLex_lt _ _ _ _)
  · intro a b _ _
    simp [toText_oracle_iff, oracleKey]

theorem positionOrder_mssql (hS : S ⊆ Set.range mssql)
    (hd : ∀ a ∈ S, ∀ b ∈ S, Distinguished a b) : PositionOrder S mssqlKey := by
  apply PositionOrder.of_isAfter hS
  · exact fun _ _ => rfl
  · exact fun _ _ _ _ => rfl
  · exact fun _ _ _ _ => congrArg Except.ok (decide_toLex_lt _ _ _ _)
  · intro a b ha hb
    have hparts : _ → _ := hd _ ha _ hb
    simp only [mssqlKey, EmbeddingLike.apply_eq_iff_eq, Prod.mk.injEq]
    refine ⟨hparts, ?_⟩
    rintro ⟨hlsn, hseqval⟩
    simp only [toText, hlsn, hseqval]

theorem positionOrder_mongodb (hS : S ⊆ Set.range mongodb) : PositionOrder S mongodbKey := by
  apply PositionOrder.of_isAfter hS
  · exact fun _ _ => rfl
  · exact fun _ _ _ _ => rfl
  · exact fun _ _ _ _ => congrArg Except.ok (decide_toLex_lt _ _ _ _)
  · intro a b _ _
    simp [toText_mongodb_iff, mongodbKey]

theorem positionOrder_mariadb (hS : S ⊆ Set.range mariadb)
    (hd : ∀ a ∈ S, ∀ b ∈ S, Distinguished a b) : PositionOrder S mariadbKey := by
  apply PositionOrder.of_isAfter hS
  · exact fun _ _ => rfl
  · exact fun _ _ _ _ => rfl
  · intro a b ha hb
    have htied : a.sequenceNo = b.sequenceNo →
        ((a.domainId = b.domainId ∧ a.serverId = b.serverId) ∨ a.binlogPos = b.binlogPos) →
          a = b := hd _ ha _ hb
    rw [mariadbKey, mariadbKey, ← decide_toLex_lt]
    show Except.ok _ = Except.ok _
    by_cases hserver : a.domainId = b.domainId ∧ a.serverId = b.serverId
    · -- On one server the sequence numbers decide, since equal ones are of equal positions.
      rw [if_pos hserver]
      by_cases hsequence : a.sequenceNo = b.sequenceNo
      · simp [htied hsequence (.inl hserver)]
      · simp [hsequence]
    · rw [if_neg hserver]
  · intro a b ha hb
    have htied : a.sequenceNo = b.sequenceNo →
        ((a.domainId = b.domainId ∧ a.serverId = b.serverId) ∨ a.binlogPos = b.binlogPos) →
          a = b := hd _ ha _ hb
    simp only [toText_mariadb_iff, mariadbKey, EmbeddingLike.apply_eq_iff_eq, Prod.mk.injEq]
    constructor
    · rintro rfl
      exact ⟨rfl, rfl⟩
    · rintro ⟨hsequence, hpos⟩
      exact htied hsequence (.inr hpos)

theorem positionOrder_delta (hS : S ⊆ Set.range delta)
    (hkind : ∀ a ∈ S, ∀ b ∈ S, SameKind a b) : PositionOrder S deltaKey := by
  apply PositionOrder.of_isAfter hS
  · exact fun _ _ => rfl
  · exact fun _ _ _ _ => rfl
  · intro a b ha hb
    have htable : a.tableName = b.tableName := hkind _ ha _ hb
    rw [isAfter, if_neg (by simp [htable])]
    rfl
  · intro a b ha hb
    have htable : a.tableName = b.tableName := hkind _ ha _ hb
    rw [toText_delta_iff htable]
    rfl

theorem positionOrder_warehouse (hS : S ⊆ Set.range warehouse)
    (hkind : ∀ a ∈ S, ∀ b ∈ S, SameKind a b) : PositionOrder S warehouseKey := by
  apply PositionOrder.of_isAfter hS
  · exact fun _ _ => rfl
  · intro a b ha hb
    have hquery : a.engine = b.engine ∧ a.queryId = b.queryId := hkind _ ha _ hb
    exact hquery.1
  · intro a b ha hb
    have hquery : a.engine = b.engine ∧ a.queryId = b.queryId := hkind _ ha _ hb
    rw [isAfter, if_neg (not_not.mpr hquery.1), if_neg (not_not.mpr hquery.2)]
    exact congrArg Except.ok (decide_toLex_lt _ _ _ _)
  · intro a b ha hb
    have hquery : a.engine = b.engine ∧ a.queryId = b.queryId := hkind _ ha _ hb
    simp [toText_warehouse_iff hquery.2, warehouseKey]

end Classes

/-! ## A total order is one of keys -/

theorem eq_self (a : CDCSourcePosition) : a.eq a = true := by
  simp [eq]

theorem eq_comm (a b : CDCSourcePosition) : a.eq b = b.eq a := by
  rw [eq, eq, decide_eq_decide.mpr (Eq.comm (a := a.engine)),
    decide_eq_decide.mpr (Eq.comm (a := a.toText))]

variable {a b : CDCSourcePosition}

/-- **In a total order the positions that are neither before nor after each other are equal.** -/
theorem OrderedOn.eq_iff {S : Set CDCSourcePosition} (hS : OrderedOn S) (ha : a ∈ S) (hb : b ∈ S) :
    a.eq b = true ↔ a.isAfter b = .ok false ∧ b.isAfter a = .ok false := by
  constructor
  · intro heq
    have hafter : ∀ {x y}, x ∈ S → y ∈ S → x.eq y = true → x.isAfter y = .ok false := by
      intro x y hx hy hxy
      rcases (hS x hx y hy x hx).trichotomy with ⟨-, -, h⟩ | ⟨-, -, h⟩ | ⟨-, h, -⟩
      · exact h
      · exact h
      · rw [hxy] at h
        cases h
    exact ⟨hafter ha hb heq, hafter hb ha (eq_comm a b ▸ heq)⟩
  · rintro ⟨hab, hba⟩
    by_contra hne
    -- Otherwise each is before the other, and then before itself.
    have hlt : ∀ {x y}, x ∈ S → y ∈ S → x.eq y ≠ true → x.isAfter y = .ok false →
        x.lt y = .ok true := by
      intro x y hx hy hxy hafter
      rcases (hS x hx y hy x hx).trichotomy with ⟨h, -, -⟩ | ⟨-, h, -⟩ | ⟨-, -, h⟩
      · exact h
      · exact absurd h hxy
      · rw [gt, hafter] at h
        cases h
    have hself := (hS a ha b hb a ha).trans (hlt ha hb hne hab)
      (hlt hb ha (eq_comm a b ▸ hne) hba)
    rcases (hS a ha a ha a ha).trichotomy with ⟨-, h, -⟩ | ⟨h, -, -⟩ | ⟨h, -, -⟩
    · rw [eq_self] at h
      cases h
    · rw [hself] at h
      cases h
    · rw [hself] at h
      cases h

theorem eq_iff_toText (a b : CDCSourcePosition) (hengine : a.engine = b.engine) :
    a.eq b = true ↔ a.toText = b.toText := by
  rw [eq, Bool.and_eq_true, decide_eq_true_iff, decide_eq_true_iff]
  exact ⟨fun h => h.2, fun h => ⟨hengine, h⟩⟩

theorem not_above_iff {α β : Type*} [LinearOrder α] [LinearOrder β] (x x' : α) (y y' : β) :
    ((if x = x' then decide (y' < y) else decide (x' < x)) = false ∧
      (if x' = x then decide (y < y') else decide (x < x')) = false) ↔ x = x' ∧ y = y' := by
  rw [decide_toLex_lt, decide_toLex_lt, decide_eq_false_iff_not, decide_eq_false_iff_not, not_lt,
    not_lt]
  constructor
  · rintro ⟨h, h'⟩
    simpa using le_antisymm h h'
  · rintro ⟨rfl, rfl⟩
    exact ⟨le_refl _, le_refl _⟩

theorem OrderedOn.distinguished {S : Set CDCSourcePosition} (hS : OrderedOn S)
    (ha : a ∈ S) (hb : b ∈ S) : Distinguished a b := by
  have hiff := hS.eq_iff ha hb
  cases a with
  | postgres a =>
    cases b with
    | postgres b =>
      intro hnumber
      rw [eq_iff_toText (postgres a) (postgres b) rfl] at hiff
      apply hiff.mpr
      simp [isAfter, hnumber]
    | _ => trivial
  | mysql a =>
    cases b with
    | mysql b =>
      rw [eq_iff_toText (mysql a) (mysql b) rfl] at hiff
      refine hiff.trans ?_
      simp only [isAfter, Except.ok.injEq]
      exact not_above_iff _ _ _ _
    | _ => trivial
  | mssql a =>
    cases b with
    | mssql b =>
      intro htext
      rw [eq_iff_toText (mssql a) (mssql b) rfl] at hiff
      have hneither := hiff.mp htext
      simp only [isAfter, Except.ok.injEq] at hneither
      exact (not_above_iff _ _ _ _).mp hneither
    | _ => trivial
  | mariadb a =>
    cases b with
    | mariadb b =>
      intro hsequence htied
      rw [eq_iff_toText (mariadb a) (mariadb b) rfl, toText_mariadb_iff] at hiff
      apply hiff.mpr
      by_cases hserver : a.domainId = b.domainId ∧ a.serverId = b.serverId
      · simp [isAfter, hserver, hsequence]
      · have hserver' : ¬ (b.domainId = a.domainId ∧ b.serverId = a.serverId) :=
          fun h => hserver ⟨h.1.symm, h.2.symm⟩
        have hpos : a.binlogPos = b.binlogPos := htied.resolve_left hserver
        simp [isAfter, hserver, hserver', hsequence, hpos]
    | _ => trivial
  | oracle a => trivial
  | mongodb a => trivial
  | delta a => trivial
  | warehouse a => trivial

/-! ## The exact condition -/

/-- The class of a position. -/
def classOf : CDCSourcePosition → Set CDCSourcePosition
  | postgres _ => Set.range postgres
  | mysql _ => Set.range mysql
  | oracle _ => Set.range oracle
  | mssql _ => Set.range mssql
  | mongodb _ => Set.range mongodb
  | mariadb _ => Set.range mariadb
  | delta _ => Set.range delta
  | warehouse _ => Set.range warehouse

theorem SameKind.mem_classOf (h : SameKind a b) : b ∈ classOf a := by
  cases a <;> cases b <;> first | exact ⟨_, rfl⟩ | exact h.elim

theorem SameKind.engine_eq (h : SameKind a b) : a.engine = b.engine := by
  cases a <;> cases b <;> first | rfl | exact h.elim | exact h.1

/-- **The exact condition.**  On a set of positions of one kind the operators are a total order
consistent with equality precisely when what is compared and what is printed agree on any two of
its positions. -/
theorem orderedOn_iff {S : Set CDCSourcePosition} (hkind : ∀ a ∈ S, ∀ b ∈ S, SameKind a b) :
    OrderedOn S ↔ ∀ a ∈ S, ∀ b ∈ S, Distinguished a b := by
  refine ⟨fun hS a ha b hb => hS.distinguished ha hb, fun hd => ?_⟩
  have hengine : ∀ a ∈ S, ∀ b ∈ S, a.engine = b.engine :=
    fun a ha b hb => (hkind a ha b hb).engine_eq
  rcases S.eq_empty_or_nonempty with rfl | ⟨a, ha⟩
  · exact fun a ha => absurd ha (Set.notMem_empty a)
  have hS : S ⊆ classOf a := fun b hb => (hkind a ha b hb).mem_classOf
  cases a with
  | postgres _ => exact .of_positionOrder (positionOrder_postgres hS hd) hengine
  | mysql _ => exact .of_positionOrder (positionOrder_mysql hS hd) hengine
  | oracle _ => exact .of_positionOrder (positionOrder_oracle hS) hengine
  | mssql _ => exact .of_positionOrder (positionOrder_mssql hS hd) hengine
  | mongodb _ => exact .of_positionOrder (positionOrder_mongodb hS) hengine
  | mariadb _ => exact .of_positionOrder (positionOrder_mariadb hS hd) hengine
  | delta _ => exact .of_positionOrder (positionOrder_delta hS hkind) hengine
  | warehouse _ => exact .of_positionOrder (positionOrder_warehouse hS hkind) hengine

/-! ## Two spellings of one position -/

/-- The LSN 0/1. -/
def plainLsn : PostgresLSNPosition where
  lsn := "0/1"
  flushedLsn := "0/1"
  numericVal := 1
  lsn_upper := by decide
  flushed_upper := by decide
  flushed_ne := by decide
  numeric_eq := by decide

/-- The LSN 0/1, written with a zero before it. -/
def paddedLsn : PostgresLSNPosition where
  lsn := "0/01"
  flushedLsn := "0/01"
  numericVal := 1
  lsn_upper := by decide
  flushed_upper := by decide
  flushed_ne := by decide
  numeric_eq := by decide

/-- The two spellings are positions of one kind on which the operators are no total order: none
of `<`, `==` and `>` holds. -/
theorem not_ordered_of_padded_lsn :
    ¬ ∀ a b c : CDCSourcePosition, SameKind a b → SameKind b c → Ordered a b c := by
  intro h
  have hordered := h (postgres plainLsn) (postgres paddedLsn) (postgres plainLsn) trivial trivial
  have hlt : (postgres plainLsn).lt (postgres paddedLsn) = .ok false := rfl
  have hgt : (postgres plainLsn).gt (postgres paddedLsn) = .ok false := rfl
  have heq : (postgres plainLsn).eq (postgres paddedLsn) = false := by decide
  rcases hordered.trichotomy with ⟨h, -, -⟩ | ⟨-, h, -⟩ | ⟨-, -, h⟩
  · rw [hlt] at h
    cases h
  · rw [heq] at h
    cases h
  · rw [hgt] at h
    cases h

/-- The exact condition for the two spellings. -/
theorem orderedOn_lsn_iff : OrderedOn {postgres plainLsn, postgres paddedLsn} ↔
      ∀ a ∈ ({postgres plainLsn, postgres paddedLsn} : Set CDCSourcePosition),
        ∀ b ∈ ({postgres plainLsn, postgres paddedLsn} : Set CDCSourcePosition),
          Distinguished a b := by
  apply orderedOn_iff
  rintro a (rfl | rfl) b (rfl | rfl)
  · trivial
  · trivial
  · trivial
  · trivial

end CDCSourcePosition

end CDC
