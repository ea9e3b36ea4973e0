import AlephSql.Failure
import Mathlib.Data.List.Forall2
import Mathlib.Data.List.TakeWhile

/-! What `execute_sqlite_select` makes of the engine's answers. A statement yields a stream of
rows, each with the texts of its columns, ended by a code other than `SQLITE_ROW`. -/
namespace AlephSql
namespace ResultRows

open Sqlite Database Failure

/-- The texts of the remaining columns of a row, from `index` on, as the engine gives them. -/
def columns (E : Engine) : (remaining index : ℕ) → Db → List (Option String) × Db
  | 0, _, d => ([],d)
  | k+1, index, d =>
    let text := d.columnText E index
    let rest := columns E k (index+1) text.2
    (text.1 :: rest.1,rest.2)

/-- `Stream E count d rows code d'`: from `d` on the steps yield `rows` of `count` columns,
then `code`, and leave `d'`. -/
inductive Stream (E : Engine) (count : ℕ) : Db → List (List (Option String)) → ℤ → Db → Prop
  | ended {d : Db} (last : (d.step E).1 ≠ SQLITE_ROW) :
      Stream E count d [] (d.step E).1 (d.step E).2
  | row {d d' : Db} {rows : List (List (Option String))} {code : ℤ}
      (row : (d.step E).1 = SQLITE_ROW)
      (rest : Stream E count (columns E count 0 (d.step E).2).2 rows code d') :
      Stream E count d ((columns E count 0 (d.step E).2).1 :: rows) code d'

/-- The rows as the result record holds them. -/
def encoded (rows : List (List (Option String))) : List (List String) := rows.map (List.map cell)

section Loop

variable {E : Engine} {count : ℕ} {d d' : Db} {rows : List (List (Option String))} {code : ℤ}

theorem columns_length (k index : ℕ) (d : Db) : (columns E k index d).1.length = k := by
  induction k generalizing index d with
  | zero => rfl
  | succ k ih => simp [columns,ih]

theorem fetchRow_eq (k index : ℕ) (row : List String) (d : Db) :
    fetchRow E k index row d =
      (row ++ (columns E k index d).1.map cell,(columns E k index d).2) := by
  induction k generalizing index row d with
  | zero => simp [fetchRow,columns]
  | succ k ih => simp [fetchRow,columns,ih,List.append_assoc]

theorem Stream.row_length (h : Stream E count d rows code d') :
    ∀ row ∈ rows, row.length = count := by
  induction h with
  | ended => simp
  | row _ _ ih =>
    intro row hrow
    rcases List.mem_cons.mp hrow with rfl | hrow
    · exact columns_length ..
    · exact ih row hrow

theorem columns_rule {P : Db → Prop} (htext : ∀ d index, P d → P (d.columnText E index).2)
    (hd : P d) (k index : ℕ) : P (columns E k index d).2 := by
  induction k generalizing index d with
  | zero => exact hd
  | succ k ih => exact ih (htext d index hd) (index+1)

/-- What every step and every column call keep is kept by the loop of a select. -/
theorem fetchRows_rule {P : Db → Prop} (hstep : ∀ d, P d → P (d.step E).2)
    (htext : ∀ d index, P d → P (d.columnText E index).2) (hd : P d) {count fuel : ℕ}
    {rows : List (List String)} {x : List (List String) × Db}
    (h : fetchRows E count fuel rows d = some x) : P x.2 := by
  induction fuel generalizing rows d with
  | zero => simp [fetchRows] at h
  | succ fuel ih =>
    by_cases hrow : (d.step E).1 = SQLITE_ROW
    · simp only [fetchRows,hrow,if_true,fetchRow_eq] at h
      exact ih (columns_rule htext (hstep d hd) count 0) h
    · simp only [fetchRows,hrow,if_false,Option.some.injEq] at h
      subst h
      exact hstep d hd

theorem Stream.fetchRows (h : Stream E count d rows code d') (acc : List (List String)) :
    fetchRows E count (rows.length+1) acc d = some (acc ++ encoded rows,d') := by
  induction h generalizing acc with
  | ended hcode => simp [Database.fetchRows,hcode,encoded]
  | @row d d' rows code hrow rest ih =>
    have hnext := ih (acc ++ [(columns E count 0 (d.step E).2).1.map cell])
    have hone : (columns E count 0 (d.step E).2).1.map cell :: encoded rows =
        encoded ((columns E count 0 (d.step E).2).1 :: rows) := rfl
    simp only [List.append_assoc,List.singleton_append,hone] at hnext
    simpa [Database.fetchRows,hrow,fetchRow_eq] using hnext

/-- Whenever the loop returns it has read a stream to its end. -/
theorem stream_of_fetchRows {fuel : ℕ} {acc : List (List String)} {x : List (List String) × Db}
    (h : Database.fetchRows E count fuel acc d = some x) :
    ∃ rows code, Stream E count d rows code x.2 := by
  induction fuel generalizing acc d with
  | zero => simp [Database.fetchRows] at h
  | succ fuel ih =>
    by_cases hrow : (d.step E).1 = SQLITE_ROW
    · simp only [Database.fetchRows,hrow,if_true,fetchRow_eq] at h
      obtain ⟨rows,code,hrest⟩ := ih h
      exact ⟨_,code,.row hrow hrest⟩
    · simp only [Database.fetchRows,hrow,if_false,Option.some.injEq] at h
      subst h
      exact ⟨[],_,.ended hrow⟩

end Loop

def counted (E : Engine) (d : Db) (sql : String) (args : List Paramter) : ℕ × Db :=
  (bindArgs E 1 args (d.prepareV2 E sql).2).columnCount E

section Select

variable {E : Engine} {d d' : Db} {sql : String} {args : List Paramter}
  {rows : List (List (Option String))} {code : ℤ}

theorem executeSqliteSelect_prepared (hopen : d.self.sqlitePtr ≠ none)
    (hprepare : prepareRet E d sql = SQLITE_OK) (fuel : ℕ) :
    executeSqliteSelect E fuel d sql args =
      (fetchRows E (counted E d sql args).1 fuel [] (counted E d sql args).2).map
        fun fetched => (selected fetched.1,fetched.2) := by
  have hok : (d.prepareV2 E sql).1 = SQLITE_OK := hprepare
  simp [executeSqliteSelect,hopen,hok,counted]

theorem executeSqliteSelect_cases {fuel : ℕ} {r : ExecuteResult}
    (h : executeSqliteSelect E fuel d sql args = some (r,d')) :
    (d.self.sqlitePtr = none ∧ r = notOpen ∧ d' = d) ∨
    (d.self.sqlitePtr ≠ none ∧ prepareRet E d sql ≠ SQLITE_OK ∧
      r = selectCompileFailed (prepareRet E d sql) ((d.prepareV2 E sql).2.errmsg E).1 ∧
      d' = ((d.prepareV2 E sql).2.errmsg E).2) ∨
    (d.self.sqlitePtr ≠ none ∧ prepareRet E d sql = SQLITE_OK ∧ ∃ rows,
      r = selected rows ∧
      fetchRows E (counted E d sql args).1 fuel [] (counted E d sql args).2 = some (rows,d')) := by
  by_cases hopen : d.self.sqlitePtr = none
  · simp only [executeSqliteSelect,hopen,if_true,Option.some.injEq,Prod.mk.injEq] at h
    exact .inl ⟨hopen,h.1.symm,h.2.symm⟩
  by_cases hprepare : prepareRet E d sql = SQLITE_OK
  · rw [executeSqliteSelect_prepared hopen hprepare,Option.map_eq_some_iff] at h
    obtain ⟨⟨rows,e⟩,hfetched,hr⟩ := h
    cases hr
    exact .inr (.inr ⟨hopen,hprepare,rows,rfl,hfetched⟩)
  · have hfailed : (d.prepareV2 E sql).1 ≠ SQLITE_OK := hprepare
    simp only [executeSqliteSelect,hopen,hfailed,if_false,ne_eq,not_false_iff,if_true,
      Option.some.injEq,Prod.mk.injEq] at h
    exact .inr (.inl ⟨hopen,hprepare,h.1.symm,h.2.symm⟩)

theorem select_of_stream (hopen : d.self.sqlitePtr ≠ none)
    (hprepare : prepareRet E d sql = SQLITE_OK)
    (h : Stream E (counted E d sql args).1 (counted E d sql args).2 rows code d') {fuel : ℕ}
    (hfuel : rows.length < fuel) :
    executeSqliteSelect E fuel d sql args = some (selected (encoded rows),d') := by
  rw [executeSqliteSelect_prepared hopen hprepare,fetchRows_le hfuel (h.fetchRows [])]
  rfl

end Select

/-- What is owed for a stream: success if and only if it ended with `SQLITE_DONE`, then all of
its rows with an entry for each column, and otherwise the translated code. -/
structure Complete (count : ℕ) (rows : List (List (Option String))) (code : ℤ)
    (r : ExecuteResult) : Prop where
  status : r.sqlite3ExecuteStatus = true ↔ code = SQLITE_DONE
  rows : code = SQLITE_DONE → r.sqlite3ResultRow = encoded rows ∧
    ∀ row ∈ r.sqlite3ResultRow, row.length = count
  failed : code ≠ SQLITE_DONE → r.sqlite3ExecuteErrorCode = getSqlErrorCode code

theorem complete_selected_iff {E : Engine} {count : ℕ} {d d' : Db}
    {rows : List (List (Option String))} {code : ℤ} (h : Stream E count d rows code d') :
    Complete count rows code (selected (encoded rows)) ↔ code = SQLITE_DONE := by
  constructor
  · intro hcomplete
    exact hcomplete.status.mp rfl
  · intro hdone
    refine ⟨by simp [selected,hdone],fun _ => ⟨rfl,fun row hrow => ?_⟩,absurd hdone⟩
    obtain ⟨texts,htexts,rfl⟩ := List.mem_map.mp hrow
    rw [List.length_map]
    exact h.row_length texts htexts

/-- A select returns on every finite stream, and is complete if and only if the stream ended
with `SQLITE_DONE`. -/
theorem select_complete_iff (E : Engine) (d : Db) (sql : String) (args : List Paramter)
    (hopen : d.self.sqlitePtr ≠ none) (hprepare : prepareRet E d sql = SQLITE_OK)
    (rows : List (List (Option String))) (code : ℤ) (d' : Db)
    (h : Stream E (counted E d sql args).1 (counted E d sql args).2 rows code d') :
    ∃ r, (∀ fuel, rows.length < fuel → executeSqliteSelect E fuel d sql args = some (r,d')) ∧
      (Complete (counted E d sql args).1 rows code r ↔ code = SQLITE_DONE) :=
  ⟨_,fun _ hfuel => select_of_stream hopen hprepare h hfuel,complete_selected_iff h⟩

section Encoding

inductive SameCell : Option String → Option String → Prop
  | same (text : Option String) : SameCell text text
  | nullLeft : SameCell none (some "NULL")
  | nullRight : SameCell (some "NULL") none

/-- A text without a zero character. -/
def ZeroFree (s : String) : Prop := Char.ofNat 0 ∉ s.toList

theorem cString_eq_iff (s : String) : cString s = s ↔ ZeroFree s := by
  have hlist : cString s = s ↔ s.toList.takeWhile (· ≠ Char.ofNat 0) = s.toList := by
    constructor
    · intro h
      simpa [cString] using congrArg String.toList h
    · intro h
      rw [cString,h,String.ofList_toList]
  rw [hlist,List.takeWhile_eq_self_iff,ZeroFree]
  constructor
  · intro h hmem
    simpa using h _ hmem
  · intro h c hc
    simpa using fun heq : c = Char.ofNat 0 => h (heq ▸ hc)

theorem cell_eq_iff {a b : Option String} (ha : ∀ s, a = some s → ZeroFree s)
    (hb : ∀ s, b = some s → ZeroFree s) : cell a = cell b ↔ SameCell a b := by
  have hcell : ∀ {text : Option String}, (∀ s, text = some s → ZeroFree s) →
      cell text = text.getD "NULL" := by
    intro text h
    cases text with
    | none => rfl
    | some s => exact (cString_eq_iff s).mpr (h s rfl)
  rw [hcell ha,hcell hb]
  constructor
  · intro h
    cases a with
    | none =>
      cases b with
      | none => exact .same _
      | some t =>
        obtain rfl : "NULL" = t := h
        exact .nullLeft
    | some s =>
      cases b with
      | none =>
        obtain rfl : s = "NULL" := h
        exact .nullRight
      | some t =>
        obtain rfl : s = t := h
        exact .same _
  · intro h
    cases h <;> rfl

theorem map_eq_map_iff {α β : Type} {f : α → β} {R : α → α → Prop} {l l' : List α}
    (h : ∀ a ∈ l, ∀ b ∈ l', f a = f b ↔ R a b) : l.map f = l'.map f ↔ List.Forall₂ R l l' := by
  induction l generalizing l' with
  | nil => cases l' <;> simp
  | cons a l ih =>
    cases l' with
    | nil => simp
    | cons b l' =>
      rw [List.map_cons,List.map_cons,List.cons.injEq,List.forall₂_cons,h a (by simp) b (by simp),
        ih fun x hx y hy => h x (by simp [hx]) y (by simp [hy])]

/-- Rows of NULLs and zero-free texts. -/
def Plain (rows : List (List (Option String))) : Prop :=
  ∀ row ∈ rows, ∀ text ∈ row, ∀ s, text = some s → ZeroFree s

theorem encoded_eq_iff {rows rows' : List (List (Option String))} (h : Plain rows)
    (h' : Plain rows') :
    encoded rows = encoded rows' ↔ List.Forall₂ (List.Forall₂ SameCell) rows rows' := by
  apply map_eq_map_iff
  intro row hrow row' hrow'
  apply map_eq_map_iff
  intro text htext text' htext'
  exact cell_eq_iff (h row hrow text htext) (h' row' hrow' text' htext')

end Encoding

/-- A select on a prepared statement whose engine rows are `rows`. -/
structure Yields (E : Engine) (d : Db) (sql : String) (args : List Paramter)
    (rows : List (List (Option String))) : Prop where
  opened : d.self.sqlitePtr ≠ none
  prepared : prepareRet E d sql = SQLITE_OK
  stream : ∃ code d', Stream E (counted E d sql args).1 (counted E d sql args).2 rows code d'

theorem fetchRows_unique {E : Engine} {count fuel fuel' : ℕ} {rows : List (List String)} {d : Db}
    {x y : List (List String) × Db} (hx : fetchRows E count fuel rows d = some x)
    (hy : fetchRows E count fuel' rows d = some y) : x = y := by
  rcases Nat.le_total fuel fuel' with hle | hle
  · rw [fetchRows_le hle hx] at hy
    exact Option.some.inj hy
  · rw [fetchRows_le hle hy] at hx
    exact (Option.some.inj hx).symm

theorem Yields.result {E : Engine} {d e : Db} {sql : String} {args : List Paramter}
    {rows : List (List (Option String))} (h : Yields E d sql args rows) {fuel : ℕ}
    {r : ExecuteResult} (hr : executeSqliteSelect E fuel d sql args = some (r,e)) :
    r.sqlite3ResultRow = encoded rows := by
  obtain ⟨hopen,hprepare,code,d',hstream⟩ := h
  rw [executeSqliteSelect_prepared hopen hprepare,Option.map_eq_some_iff] at hr
  obtain ⟨fetched,hfetched,hr⟩ := hr
  have hrows := fetchRows_unique hfetched (hstream.fetchRows [])
  simp only [Prod.mk.injEq] at hr
  rw [← hr.1,hrows]
  rfl

/-- Two selects give equal rows if and only if the engine's rows are equal cell by cell, NULL
and the text "NULL" being taken for each other. -/
theorem rows_equal_iff (E E' : Engine) (d d' e e' : Db) (sql sql' : String)
    (args args' : List Paramter) (rows rows' : List (List (Option String)))
    (h : Yields E d sql args rows) (h' : Yields E' d' sql' args' rows')
    (hplain : Plain rows) (hplain' : Plain rows') (fuel fuel' : ℕ) (r r' : ExecuteResult)
    (hr : executeSqliteSelect E fuel d sql args = some (r,e))
    (hr' : executeSqliteSelect E' fuel' d' sql' args' = some (r',e')) :
    r.sqlite3ResultRow = r'.sqlite3ResultRow ↔
      List.Forall₂ (List.Forall₂ SameCell) rows rows' := by
  rw [h.result hr,h'.result hr']
  exact encoded_eq_iff hplain hplain'

section Samples

def isStep : Event → Bool
  | .step _ _ => true
  | _ => false

/-- An engine whose steps answer one after the other with the given codes, every row having
the one column `text`. -/
def scripted (text : Option String) (codes : List ℤ) : Engine :=
  { sampleEngine with
    columnCount := fun _ _ => 1
    step := fun h _ => codes.getD (h.countP isStep) SQLITE_MISUSE
    columnText := fun _ _ _ => text }

theorem stream_scripted (text : Option String) (code : ℤ) (hcode : code ≠ SQLITE_ROW) :
    ∃ d', Stream (scripted text [SQLITE_ROW,code])
      (counted (scripted text [SQLITE_ROW,code]) openedObject "SELECT age FROM test" []).1
      (counted (scripted text [SQLITE_ROW,code]) openedObject "SELECT age FROM test" []).2
      [[text]] code d' :=
  ⟨_,.row rfl (.ended hcode)⟩

theorem yields_scripted (text : Option String) :
    Yields (scripted text [SQLITE_ROW,SQLITE_DONE]) openedObject "SELECT age FROM test" []
      [[text]] := by
  obtain ⟨d',h⟩ := stream_scripted text SQLITE_DONE (by decide)
  exact ⟨by decide,rfl,_,d',h⟩

theorem select_complete_iff_one_row : ∃ r,
    Complete 1 [[some "16"]] SQLITE_DONE r ∧ r.sqlite3ResultRow = [["16"]] := by
  obtain ⟨d',h⟩ := stream_scripted (some "16") SQLITE_DONE (by decide)
  obtain ⟨r,hr,hiff⟩ := select_complete_iff _ openedObject "SELECT age FROM test" [] (by decide)
    rfl _ _ _ h
  have hcomplete := hiff.mpr rfl
  exact ⟨r,hcomplete,(hcomplete.rows rfl).1⟩

/-- One row, then `SQLITE_BUSY`: the select reports success with the rows it has seen. -/
theorem partial_result_looks_complete : ∃ r d',
    executeSqliteSelect (scripted (some "16") [SQLITE_ROW,SQLITE_BUSY]) 2 openedObject
      "SELECT age FROM test" [] = some (r,d') ∧
    r.sqlite3ExecuteStatus = true ∧ r.sqlite3ResultRow = [["16"]] ∧
    r.sqlite3ExecuteErrorCode = SQL_SUCCESS ∧ ¬Complete 1 [[some "16"]] SQLITE_BUSY r := by
  obtain ⟨d',h⟩ := stream_scripted (some "16") SQLITE_BUSY (by decide)
  refine ⟨_,d',select_of_stream (by decide) rfl h (by decide),rfl,rfl,rfl,fun hbad => ?_⟩
  exact absurd (hbad.status.mp rfl) (by decide)

theorem plain_one {text : Option String} (h : ∀ s, text = some s → ZeroFree s) :
    Plain [[text]] := by
  intro row hrow t ht
  rw [List.mem_singleton] at hrow
  subst hrow
  rw [List.mem_singleton] at ht
  exact ht ▸ h

theorem rows_equal_iff_one_cell :
    encoded [[none]] = encoded [[some "NULL"]] ↔
      List.Forall₂ (List.Forall₂ SameCell) [[none]] [[some "NULL"]] :=
  rows_equal_iff (scripted none [SQLITE_ROW,SQLITE_DONE])
    (scripted (some "NULL") [SQLITE_ROW,SQLITE_DONE]) openedObject openedObject _ _ _ _ _ _
    [[none]] [[some "NULL"]] (yields_scripted none) (yields_scripted (some "NULL"))
    (plain_one (by simp)) (plain_one (by simp [ZeroFree])) 2 2 _ _ rfl rfl

/-- A NULL and the text "NULL" give the same result. -/
theorem null_looks_like_text : ∃ r d' e',
    executeSqliteSelect (scripted none [SQLITE_ROW,SQLITE_DONE]) 2 openedObject
      "SELECT age FROM test" [] = some (r,d') ∧
    executeSqliteSelect (scripted (some "NULL") [SQLITE_ROW,SQLITE_DONE]) 2 openedObject
      "SELECT age FROM test" [] = some (r,e') ∧
    Yields (scripted none [SQLITE_ROW,SQLITE_DONE]) openedObject "SELECT age FROM test" []
      [[none]] ∧
    Yields (scripted (some "NULL") [SQLITE_ROW,SQLITE_DONE]) openedObject "SELECT age FROM test"
      [] [[some "NULL"]] ∧
    [[(none : Option String)]] ≠ [[some "NULL"]] := by
  obtain ⟨d',h⟩ := stream_scripted none SQLITE_DONE (by decide)
  obtain ⟨e',h'⟩ := stream_scripted (some "NULL") SQLITE_DONE (by decide)
  exact ⟨_,d',e',select_of_stream (by decide) rfl h (by decide),
    select_of_stream (by decide) rfl h' (by decide),yields_scripted _,yields_scripted _,by decide⟩

end Samples

end ResultRows
end AlephSql
