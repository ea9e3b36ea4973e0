import AlephSql.FailedCalls
import AlephSql.ResultRows
import Mathlib

/-! What becomes of the parameters of an operation: the codes of the binds, which nobody looks
at, and the values as the engine has them and as a select reads them back. -/
namespace AlephSql
namespace Parameters

open Sqlite Database Failure FailedCalls ResultRows

section Codes

variable {E : Engine} {d d' : Db} {sql : String} {args : List Paramter}

/-- The codes that the binds answer with. -/
def bindCodes (E : Engine) : ℕ → List Paramter → Db → List ℤ
  | _, [], _ => []
  | index, p :: rest, d =>
    E.bind d.calls d.self.sqliteStmt index (bound p) ::
      bindCodes E (index+1) rest (d.bind E index (bound p))

/-- The codes of the binds that an operation comes to. -/
def callCodes (E : Engine) (d : Db) (sql : String) (args : List Paramter) : List ℤ :=
  if d.self.sqlitePtr ≠ none ∧ prepareRet E d sql = SQLITE_OK then
    bindCodes E 1 args (d.prepareV2 E sql).2
  else []

def bindFailure (E : Engine) (d : Db) (sql : String) (args : List Paramter) : Option ℤ :=
  (callCodes E d sql args).find? (· ≠ SQLITE_OK)

def stepCount (h : History) : ℕ := h.countP isStep

structure Stopped (d : Db) (code : ℤ) (r : ExecuteResult) (d' : Db) : Prop where
  status : r.sqlite3ExecuteStatus = false
  code : r.sqlite3ExecuteErrorCode = getSqlErrorCode code
  unstepped : stepCount d'.calls = stepCount d.calls

def ExecuteStops (E : Engine) (d : Db) (sql : String) (args : List Paramter) : Prop :=
  ∀ code, bindFailure E d sql args = some code →
    Stopped d code (executeSqlite E d sql args).1 (executeSqlite E d sql args).2

def SelectStops (E : Engine) (d : Db) (sql : String) (args : List Paramter) : Prop :=
  ∀ code, bindFailure E d sql args = some code →
    ∃ fuel r d', executeSqliteSelect E fuel d sql args = some (r,d') ∧ Stopped d code r d'

theorem prepared_of_bindFailure {code : ℤ} (h : bindFailure E d sql args = some code) :
    d.self.sqlitePtr ≠ none ∧ prepareRet E d sql = SQLITE_OK := by
  by_contra hnot
  simp [bindFailure,callCodes,if_neg hnot] at h

theorem stepCount_bindArgs (index : ℕ) :
    stepCount (bindArgs E index args d).calls = stepCount d.calls :=
  bindArgs_rule (P := fun x => stepCount x.calls = stepCount d.calls)
    (fun _ _ _ h => (List.countP_cons_of_neg (by simp [isStep])).trans h) rfl index

theorem stepCount_step : stepCount (d.step E).2.calls = stepCount d.calls+1 :=
  List.countP_cons_of_pos rfl

theorem stepCount_columns (k index : ℕ) :
    stepCount (columns E k index d).2.calls = stepCount d.calls :=
  columns_rule (P := fun x => stepCount x.calls = stepCount d.calls)
    (fun _ _ h => (List.countP_cons_of_neg (by simp [isStep])).trans h) rfl k index

theorem stepCount_fetchRows {count fuel : ℕ} {rows : List (List String)}
    {x : List (List String) × Db} (h : fetchRows E count fuel rows d = some x) :
    stepCount d.calls < stepCount x.2.calls := by
  induction fuel generalizing rows d with
  | zero => simp [fetchRows] at h
  | succ fuel ih =>
    have hstep := stepCount_step (E := E) (d := d)
    by_cases hrow : (d.step E).1 = SQLITE_ROW
    · simp only [fetchRows,hrow,if_true,fetchRow_eq] at h
      have hnext := ih h
      rw [stepCount_columns] at hnext
      omega
    · simp only [fetchRows,hrow,if_false,Option.some.injEq] at h
      subst h
      change stepCount d.calls < stepCount (d.step E).2.calls
      omega

theorem stepCount_executeSqlite (hopen : d.self.sqlitePtr ≠ none)
    (hprepare : prepareRet E d sql = SQLITE_OK) :
    stepCount d.calls < stepCount (executeSqlite E d sql args).2.calls := by
  have hbind : stepCount (bindArgs E 1 args (d.prepareV2 E sql).2).calls = stepCount d.calls :=
    (stepCount_bindArgs 1).trans (List.countP_cons_of_neg (by simp [isStep]))
  have hstep : stepCount (stepped E d sql args).calls = stepCount d.calls+1 := by
    rw [← hbind]
    exact stepCount_step
  have hafter : stepCount (executeSqlite E d sql args).2.calls =
      stepCount (stepped E d sql args).calls := by
    rcases executeSqlite_cases E d sql args with ⟨hnone,-⟩ | ⟨-,hfailed,-⟩ | ⟨-,-,-,hx⟩ |
      ⟨-,-,-,hx⟩
    · exact absurd hnone hopen
    · exact absurd hprepare hfailed
    · rw [hx]
      exact List.countP_cons_of_neg (by simp [isStep])
    · rw [hx]
      exact List.countP_cons_of_neg (by simp [isStep])
  omega

theorem stepCount_executeSqliteSelect (hopen : d.self.sqlitePtr ≠ none)
    (hprepare : prepareRet E d sql = SQLITE_OK) {fuel : ℕ} {r : ExecuteResult}
    (h : executeSqliteSelect E fuel d sql args = some (r,d')) :
    stepCount d.calls < stepCount d'.calls := by
  rw [executeSqliteSelect_prepared hopen hprepare,Option.map_eq_some_iff] at h
  obtain ⟨fetched,hfetched,hr⟩ := h
  cases hr
  have hloop := stepCount_fetchRows hfetched
  have hbind : stepCount (counted E d sql args).2.calls =
      stepCount (bindArgs E 1 args (d.prepareV2 E sql).2).calls :=
    List.countP_cons_of_neg (by simp [isStep])
  have hprepared : stepCount (d.prepareV2 E sql).2.calls = stepCount d.calls :=
    List.countP_cons_of_neg (by simp [isStep])
  rw [hbind,stepCount_bindArgs,hprepared] at hloop
  exact hloop

theorem forall_bindFailure_iff {P : ℤ → Prop}
    (h : ∀ code, bindFailure E d sql args = some code → ¬P code) :
    (∀ code, bindFailure E d sql args = some code → P code) ↔
      ∀ code ∈ callCodes E d sql args, code = SQLITE_OK := by
  have hnone : bindFailure E d sql args = none ↔
      ∀ code ∈ callCodes E d sql args, code = SQLITE_OK := by simp [bindFailure]
  rw [← hnone]
  constructor
  · intro hall
    by_contra hfailed
    obtain ⟨code,hcode⟩ := Option.ne_none_iff_exists'.mp hfailed
    exact h code hcode (hall code hcode)
  · intro hnone code hcode
    rw [hnone] at hcode
    cases hcode

/-- Both operations stop at a failed bind exactly when there is none. -/
theorem bind_failure_stops_iff (E : Engine) (d : Db) (sql : String) (args : List Paramter) :
    (ExecuteStops E d sql args ↔ ∀ code ∈ callCodes E d sql args, code = SQLITE_OK) ∧
    (SelectStops E d sql args ↔ ∀ code ∈ callCodes E d sql args, code = SQLITE_OK) := by
  constructor
  · apply forall_bindFailure_iff
    intro code hcode hstopped
    obtain ⟨hopen,hprepare⟩ := prepared_of_bindFailure hcode
    have hstep : stepCount d.calls < stepCount (executeSqlite E d sql args).2.calls :=
      stepCount_executeSqlite hopen hprepare
    have hunstepped := hstopped.unstepped
    omega
  · apply forall_bindFailure_iff
    rintro code hcode ⟨fuel,r,d',hr,hstopped⟩
    obtain ⟨hopen,hprepare⟩ := prepared_of_bindFailure hcode
    have hstep := stepCount_executeSqliteSelect hopen hprepare hr
    have hunstepped := hstopped.unstepped
    omega

def onePlaceholder : Engine :=
  { sampleEngine with
    bind := fun _ _ index _ => if index = 1 then SQLITE_OK else SQLITE_RANGE }

theorem bind_failure_stops_iff_one_value :
    ExecuteStops onePlaceholder openedObject "INSERT INTO test (age) VALUES (?)" [.int 16] ∧
    SelectStops onePlaceholder openedObject "INSERT INTO test (age) VALUES (?)" [.int 16] := by
  have h := bind_failure_stops_iff onePlaceholder openedObject "INSERT INTO test (age) VALUES (?)"
    [.int 16]
  exact ⟨h.1.mpr (by decide),h.2.mpr (by decide)⟩

/-- One value too many: the second bind answers `SQLITE_RANGE`, and the statement is run. -/
theorem extra_value_dropped :
    bindFailure onePlaceholder openedObject "INSERT INTO test (age) VALUES (?)"
      [.int 16,.int 17] = some SQLITE_RANGE ∧
    (executeSqlite onePlaceholder openedObject "INSERT INTO test (age) VALUES (?)"
      [.int 16,.int 17]).1.sqlite3ExecuteStatus = true ∧
    ¬ExecuteStops onePlaceholder openedObject "INSERT INTO test (age) VALUES (?)"
      [.int 16,.int 17] ∧
    ¬SelectStops onePlaceholder openedObject "INSERT INTO test (age) VALUES (?)"
      [.int 16,.int 17] := by
  have hfailed : bindFailure onePlaceholder openedObject "INSERT INTO test (age) VALUES (?)"
      [.int 16,.int 17] = some SQLITE_RANGE := by decide
  refine ⟨hfailed,by decide,fun h => ?_,fun h => ?_⟩
  · exact absurd (h _ hfailed).status (by decide)
  · obtain ⟨fuel,r,d',hr,hstopped⟩ := h _ hfailed
    have hstep := stepCount_executeSqliteSelect (by decide) (by decide) hr
    have hunstepped := hstopped.unstepped
    omega

end Codes

section Echo

def names (s : StmtId) : Event → Option (Option String)
  | .prepareV2 _ sql _ out => if out = some s then some (some sql) else none
  | _ => none

def textOf (s : StmtId) (h : History) : Option String := latest (names s) h

/-- The text of a bound value as a column, a double as `double` renders it. -/
def storedText (double : UInt64 → String) : Bound → Option String
  | .int v => some (toString v.toInt)
  | .int64 v => some (toString v.toInt)
  | .double bits => some (double bits)
  | .text text => text
  | .null => none

/-- The text `sql` is a statement with `n` placeholders that answers with one row, the values
bound to them in their order, each time it is run. -/
structure Echoes (E : Engine) (double : UInt64 → String) (sql : String) (n : ℕ) : Prop where
  prepare : ∀ h c, ∃ s, E.prepareV2 h (some c) sql = (SQLITE_OK,some s)
  bind : ∀ h s i v, textOf s h = some sql → lastStep s h = none → 1 ≤ i → i ≤ n →
    E.bind h (some s) i v = SQLITE_OK
  columnCount : ∀ h s, textOf s h = some sql → E.columnCount h (some s) = n
  step : ∀ h s, textOf s h = some sql →
    E.step h (some s) = if lastStep s h = some SQLITE_ROW then SQLITE_DONE else SQLITE_ROW
  columnText : ∀ h s i, textOf s h = some sql → OnRow s h → i < n →
    E.columnText h (some s) i = (boundAt s (i+1) h).bind (storedText double)

variable {E : Engine} {double : UInt64 → String} {sql : String} {n : ℕ} {d : Db} {s : StmtId}
  {args : List Paramter}

/-- The object holds statement `s`, prepared from `sql`. -/
structure Holds (s : StmtId) (sql : String) (d : Db) : Prop where
  stmt : d.self.sqliteStmt = some s
  text : textOf s d.calls = some sql

theorem Holds.log (h : Holds s sql d) {e : Event} (he : names s e = none) :
    Holds s sql (d.log e) := ⟨h.stmt,(latest_cons_none he _).trans h.text⟩

theorem Holds.bindArgs (h : Holds s sql d) (index : ℕ) : Holds s sql (bindArgs E index args d) :=
  bindArgs_rule (P := Holds s sql) (fun _ _ _ hd => hd.log rfl) h index

theorem boundAt_bindArgs_lt {i index : ℕ} (hi : i < index) :
    boundAt s i (Database.bindArgs E index args d).calls = boundAt s i d.calls := by
  induction args generalizing index d with
  | nil => rfl
  | cons p rest ih =>
    rw [Database.bindArgs,ih (Nat.lt_succ_of_lt hi)]
    apply latest_cons_none
    simp only [Event.binds]
    rw [if_neg]
    rintro ⟨-,heq,-⟩
    omega

theorem boundAt_bindArgs (hE : Echoes E double sql n) (h : Holds s sql d)
    (hfresh : lastStep s d.calls = none) {index : ℕ} (hindex : 1 ≤ index)
    (hn : index + args.length ≤ n+1) (j : ℕ) (hj : j < args.length) :
    boundAt s (index+j) (Database.bindArgs E index args d).calls = some (bound args[j]) := by
  induction args generalizing index d j with
  | nil => simp at hj
  | cons p rest ih =>
    simp only [List.length_cons] at hn hj
    cases j with
    | zero =>
      have hok := hE.bind d.calls s index (bound p) h.text hfresh hindex (by omega)
      rw [Database.bindArgs,Nat.add_zero,boundAt_bindArgs_lt (Nat.lt_succ_self index)]
      simp [boundAt,Db.bind,Db.log,latest_cons,Event.binds,h.stmt,hok]
    | succ j =>
      have hlogged : Holds s sql (d.bind E index (bound p)) := h.log rfl
      have hunstepped : lastStep s (d.bind E index (bound p)).calls = none :=
        (latest_cons_none rfl _).trans hfresh
      have hsum : index+(j+1) = index+1+j := by omega
      rw [Database.bindArgs,hsum]
      exact ih hlogged hunstepped (by omega) (by omega) j (by omega)

theorem columns_echo (hE : Echoes E double sql n) (h : Holds s sql d) (hrow : OnRow s d.calls)
    {index : ℕ} {values : List Bound} (hn : index + values.length ≤ n)
    (hvalues : ∀ j (hj : j < values.length), boundAt s (index+j+1) d.calls = some values[j]) :
    (columns E values.length index d).1 = values.map (storedText double) := by
  induction values generalizing index d with
  | nil => rfl
  | cons v rest ih =>
    simp only [List.length_cons] at hn hvalues
    have htext := hE.columnText d.calls s index h.text hrow (by omega)
    have hfirst : boundAt s (index+1) d.calls = some v := hvalues 0 (by omega)
    rw [hfirst,Option.bind_some] at htext
    have hrest : (columns E rest.length (index+1) (d.columnText E index).2).1 =
        rest.map (storedText double) := by
      apply ih (h.log rfl) ((latest_cons_none rfl _).trans hrow) (by omega)
      intro j hj
      have hsame : boundAt s (index+1+j+1) (d.columnText E index).2.calls =
          boundAt s (index+(j+1)+1) d.calls := by
        rw [boundAt,Db.columnText,Db.log,latest_cons_none rfl,← boundAt]
        congr 1
        omega
      exact hsame.trans (hvalues (j+1) (by omega))
    have hnow : (d.columnText E index).1 = storedText double v := by
      rw [← htext,← h.stmt]
      rfl
    rw [List.length_cons,columns,List.map_cons,hnow,hrest]

theorem holds_prepareV2 (hE : Echoes E double (cString sql) n) (hopen : d.self.sqlitePtr ≠ none) :
    prepareRet E d sql = SQLITE_OK ∧ ∃ s, Holds s (cString sql) (d.prepareV2 E sql).2 ∧
      lastStep s (d.prepareV2 E sql).2.calls = none := by
  obtain ⟨c,hc⟩ := Option.ne_none_iff_exists'.mp hopen
  obtain ⟨s,hs⟩ := hE.prepare d.calls c
  have hanswer : E.prepareV2 d.calls d.self.sqlitePtr (cString sql) = (SQLITE_OK,some s) := by
    rw [hc,hs]
  refine ⟨by rw [prepareRet,Db.prepareV2,hanswer],s,⟨?_,?_⟩,?_⟩
  · rw [Db.prepareV2,hanswer]
  · simp [Db.prepareV2,hanswer,textOf,latest_cons,names]
  · simp [Db.prepareV2,hanswer,lastStep,latest_cons,Event.steps]

theorem holds_counted (hE : Echoes E double (cString sql) args.length)
    (hopen : d.self.sqlitePtr ≠ none) :
    ∃ s, (counted E d sql args).1 = args.length ∧
      Holds s (cString sql) (counted E d sql args).2 ∧
      lastStep s (counted E d sql args).2.calls = none ∧
      ∀ j (hj : j < args.length),
        boundAt s (j+1) (counted E d sql args).2.calls = some (bound args[j]) := by
  obtain ⟨-,s,hholds,hfresh⟩ := holds_prepareV2 (d := d) hE hopen
  let d₁ := Database.bindArgs E 1 args (d.prepareV2 E sql).2
  have h₁ : Holds s (cString sql) d₁ := hholds.bindArgs 1
  have hcount : (d₁.columnCount E).1 = args.length := by
    rw [Db.columnCount,h₁.stmt]
    exact hE.columnCount _ _ h₁.text
  have hstep : lastStep s (d₁.columnCount E).2.calls = none :=
    (latest_cons_none rfl _).trans ((lastStep_bindArgs s 1).trans hfresh)
  refine ⟨s,hcount,h₁.log rfl,hstep,fun j hj => ?_⟩
  have hbound := boundAt_bindArgs hE hholds hfresh (le_refl 1) (by omega) j hj
  rw [Nat.add_comm 1 j] at hbound
  exact (latest_cons_none rfl _).trans hbound

/-- The statement answers with the values bound to its placeholders, then to the end. -/
theorem stream_echo (hE : Echoes E double sql n) (h : Holds s sql d)
    (hfresh : lastStep s d.calls = none) {values : List Bound} (hn : values.length = n)
    (hvalues : ∀ j (hj : j < values.length), boundAt s (j+1) d.calls = some values[j]) :
    ∃ code d', Stream E n d [values.map (storedText double)] code d' := by
  have hrow : (d.step E).1 = SQLITE_ROW := by
    rw [Db.step,h.stmt,hE.step _ _ h.text,hfresh]
    rfl
  let d₁ := (d.step E).2
  have h₁ : Holds s sql d₁ := h.log rfl
  have honrow : OnRow s d₁.calls := by
    rw [OnRow,← hrow]
    simp [d₁,lastStep,Db.step,Db.log,latest_cons,Event.steps,h.stmt]
  have hcolumns : (columns E n 0 d₁).1 = values.map (storedText double) := by
    have hkept : ∀ j (hj : j < values.length), boundAt s (0+j+1) d₁.calls = some values[j] := by
      intro j hj
      rw [Nat.zero_add]
      exact (latest_cons_none rfl _).trans (hvalues j hj)
    have hecho := columns_echo hE h₁ honrow (by omega) hkept
    rwa [hn] at hecho
  let d₂ := (columns E n 0 d₁).2
  have h₂ : Holds s sql d₂ := columns_rule (fun _ _ hd => hd.log rfl) h₁ _ _
  have hstill : OnRow s d₂.calls :=
    columns_rule (P := fun x => OnRow s x.calls)
      (fun _ _ hd => (latest_cons_none rfl _).trans hd) honrow _ _
  have hdone : (d₂.step E).1 = SQLITE_DONE := by
    have hlast : lastStep s d₂.calls = some SQLITE_ROW := hstill
    rw [Db.step,h₂.stmt,hE.step _ _ h₂.text,if_pos hlast]
  rw [← hcolumns]
  exact ⟨_,_,.row hrow (.ended (by rw [hdone]; decide))⟩

theorem yields_echo (hE : Echoes E double (cString sql) args.length)
    (hopen : d.self.sqlitePtr ≠ none) :
    Yields E d sql args [(args.map bound).map (storedText double)] := by
  obtain ⟨s,hcount,hholds,hfresh,hbound⟩ := holds_counted (d := d) hE hopen
  refine ⟨hopen,(holds_prepareV2 hE hopen).1,?_⟩
  rw [hcount]
  apply stream_echo hE hholds hfresh (List.length_map bound)
  intro j hj
  rw [List.getElem_map]
  exact hbound j (by simpa using hj)

theorem select_echo (hE : Echoes E double (cString sql) args.length)
    (hopen : d.self.sqlitePtr ≠ none) :
    ∃ d', ∀ fuel, 1 < fuel → executeSqliteSelect E fuel d sql args =
      some (selected [args.map fun p => cell (storedText double (bound p))],d') := by
  obtain ⟨-,hprepare,code,d',hstream⟩ := yields_echo (d := d) hE hopen
  refine ⟨d',fun fuel hfuel => ?_⟩
  rw [select_of_stream hopen hprepare hstream hfuel]
  simp [encoded,Function.comp_def]

end Echo

/-- A select on a statement that returns its parameters gives back given texts if and only if
these are the stored ones, each up to its first zero. -/
theorem select_echo_iff {E : Engine} {double : UInt64 → String} {sql : String} {d : Db}
    (args : List Paramter) (hE : Echoes E double (cString sql) args.length)
    (hopen : d.self.sqlitePtr ≠ none) (texts : List String) :
    (∃ d', ∀ fuel, 1 < fuel → executeSqliteSelect E fuel d sql args =
      some (selected [texts],d')) ↔
      (args.map fun p => cell (storedText double (bound p))) = texts := by
  obtain ⟨d',hselect⟩ := select_echo (d := d) hE hopen
  constructor
  · rintro ⟨e,he⟩
    have hboth := (hselect 2 (by decide)).symm.trans (he 2 (by decide))
    simpa [selected] using congrArg (Option.map fun x => x.1.sqlite3ResultRow) hboth
  · rintro rfl
    exact ⟨d',hselect⟩

theorem zeroFree_cString (s : String) : ZeroFree (cString s) := by
  rw [ZeroFree,cString,String.toList_ofList]
  intro hmem
  simpa using List.mem_takeWhile_imp hmem

/-- Strings come back as they were bound if and only if none holds a zero character. -/
theorem text_round_trip_iff (E : Engine) (double : UInt64 → String) (sql : String)
    (strings : List String) (hE : Echoes E double (cString sql) strings.length) (d : Db)
    (hopen : d.self.sqlitePtr ≠ none) :
    (∃ d', ∀ fuel, 1 < fuel → executeSqliteSelect E fuel d sql (strings.map .string) =
      some (selected [strings],d')) ↔ ∀ s ∈ strings, ZeroFree s := by
  have hcell : ∀ s, cell (storedText double (bound (.string s))) = cString s :=
    fun s => (cString_eq_iff _).mpr (zeroFree_cString s)
  rw [select_echo_iff _ (by rwa [List.length_map]) hopen,List.map_map]
  have hmap : (strings.map ((fun p => cell (storedText double (bound p))) ∘ .string)) =
      strings.map cString := List.map_congr_left fun s _ => hcell s
  have hid : strings.map cString = strings ↔ strings.map cString = strings.map id := by
    rw [List.map_id]
  rw [hmap,hid,List.map_inj_left]
  exact forall₂_congr fun s _ => cString_eq_iff s

section Integers

inductive IntegerParamter
  | int (value : Int32)
  | uint64 (value : UInt64)
  deriving DecidableEq, Repr

namespace IntegerParamter

def paramter : IntegerParamter → Paramter
  | .int v => .int v
  | .uint64 v => .uint64 v

def value : IntegerParamter → ℤ
  | .int v => v.toInt
  | .uint64 v => v.toNat

end IntegerParamter

/-- The 64-bit signed value that the engine stores for an integer. -/
def storedInteger : Bound → Option Int64
  | .int v => some v.toInt64
  | .int64 v => some v
  | _ => none

/-- The stored values compare as the parameters do, and a select reads each back as the decimal
text of its parameter. -/
structure IntegersKept (E : Engine) (d : Db) (sql : String) (p q : IntegerParamter) : Prop where
  order : ∃ x y, storedInteger (bound p.paramter) = some x ∧
    storedInteger (bound q.paramter) = some y ∧
    compare x.toInt y.toInt = compare p.value q.value
  text : ∃ d', ∀ fuel, 1 < fuel → executeSqliteSelect E fuel d sql [p.paramter,q.paramter] =
    some (selected [[toString p.value,toString q.value]],d')

theorem toInt_toInt64_eq_iff (v : UInt64) : v.toInt64.toInt = v.toNat ↔ v.toNat < 2^63 := by
  have hmod : v.toInt64.toInt = (v.toNat : ℤ).bmod (2^64) := by
    rw [Int64.toInt,BitVec.toInt_eq_toNat_bmod]
    rfl
  have hlt := v.toNat_lt
  rw [hmod]
  constructor
  · intro h
    have hbound := Int.bmod_lt (x := v.toNat) (m := 2^64) (by decide)
    omega
  · intro h
    apply Int.bmod_eq_of_le <;> omega

theorem zeroFree_natRepr (n : ℕ) : ZeroFree n.repr := by
  rw [ZeroFree,Nat.toList_repr]
  intro hmem
  have hdigit := Nat.isDigit_of_mem_toDigits (by decide) (by decide) hmem
  exact absurd hdigit (by decide)

theorem zeroFree_toString (z : ℤ) : ZeroFree (toString z) := by
  cases z with
  | ofNat n => exact zeroFree_natRepr n
  | negSucc n =>
    have htext : toString (Int.negSucc n) = "-" ++ (n+1).repr := rfl
    rw [ZeroFree,htext,String.toList_append,List.mem_append,not_or]
    exact ⟨by decide,zeroFree_natRepr (n+1)⟩

/-- What is stored for an integer parameter, and how it is read back. -/
theorem storedInteger_bound (double : UInt64 → String) (p : IntegerParamter) :
    ∃ x, storedInteger (bound p.paramter) = some x ∧
      cell (storedText double (bound p.paramter)) = toString x.toInt ∧
      (x.toInt = p.value ↔ p.value < 2^63) := by
  have hcell : ∀ z : ℤ, cell (some (toString z)) = toString z :=
    fun z => (cString_eq_iff _).mpr (zeroFree_toString z)
  cases p with
  | int v =>
    have hsame : v.toInt64.toInt = v.toInt := Int32.toInt_toInt64 v
    refine ⟨v.toInt64,rfl,?_,iff_of_true hsame ?_⟩
    · rw [hsame]
      exact hcell v.toInt
    · have hlt := v.toInt_lt
      simp only [IntegerParamter.value]
      omega
  | uint64 v =>
    refine ⟨v.toInt64,rfl,hcell _,?_⟩
    rw [IntegerParamter.value,toInt_toInt64_eq_iff]
    omega

/-- Two integer parameters keep their values and their order if and only if both values are
below 2^63. -/
theorem integers_kept_iff (E : Engine) (double : UInt64 → String) (sql : String)
    (hE : Echoes E double (cString sql) 2) (d : Db) (hopen : d.self.sqlitePtr ≠ none)
    (p q : IntegerParamter) :
    IntegersKept E d sql p q ↔ p.value < 2^63 ∧ q.value < 2^63 := by
  obtain ⟨x,hx,hxtext,hxvalue⟩ := storedInteger_bound double p
  obtain ⟨y,hy,hytext,hyvalue⟩ := storedInteger_bound double q
  have hread : (∃ d', ∀ fuel, 1 < fuel →
      executeSqliteSelect E fuel d sql [p.paramter,q.paramter] =
        some (selected [[toString p.value,toString q.value]],d')) ↔
      x.toInt = p.value ∧ y.toInt = q.value := by
    rw [select_echo_iff [p.paramter,q.paramter] hE hopen]
    simp [hxtext,hytext,Int.repr_inj]
  rw [← hxvalue,← hyvalue]
  constructor
  · intro h
    exact hread.mp h.text
  · intro h
    refine ⟨⟨x,y,hx,hy,?_⟩,hread.mpr h⟩
    rw [h.1,h.2]

end Integers

section Samples

/-- An engine whose every text is a statement that returns its `n` parameters. -/
def echoing (n : ℕ) : Engine :=
  { sampleEngine with
    prepareV2 := fun _ _ _ => (SQLITE_OK,some 1)
    columnCount := fun _ _ => n
    step := fun h stmt =>
      if stmt.bind (lastStep · h) = some SQLITE_ROW then SQLITE_DONE else SQLITE_ROW
    columnText := fun h stmt i =>
      stmt.bind fun s => (boundAt s (i+1) h).bind (storedText fun _ => "0.0") }

theorem echoes_echoing (n : ℕ) (sql : String) : Echoes (echoing n) (fun _ => "0.0") sql n :=
  ⟨fun _ _ => ⟨1,rfl⟩,fun _ _ _ _ _ _ _ _ => rfl,fun _ _ _ => rfl,fun _ _ _ => rfl,
    fun _ _ _ _ _ _ => rfl⟩

theorem text_round_trip_iff_two_names : ∃ d', ∀ fuel, 1 < fuel →
    executeSqliteSelect (echoing 2) fuel openedObject "SELECT ?, ?" [.string "Nana",.string "Mis"] =
      some (selected [["Nana","Mis"]],d') :=
  (text_round_trip_iff (echoing 2) _ "SELECT ?, ?" ["Nana","Mis"] (echoes_echoing 2 _) openedObject
    (by decide)).mpr (by simp [ZeroFree])

/-- A string with a zero character in it comes back cut off there. -/
theorem text_cut_at_zero :
    (∃ d', executeSqliteSelect (echoing 1) 2 openedObject "SELECT ?" [.string "Na\x00na"] =
      some (selected [["Na"]],d')) ∧
    ¬∃ d', ∀ fuel, 1 < fuel →
      executeSqliteSelect (echoing 1) fuel openedObject "SELECT ?" [.string "Na\x00na"] =
        some (selected [["Na\x00na"]],d') := by
  constructor
  · exact ⟨_,rfl⟩
  · rintro ⟨d',h⟩
    have hrow : some [["Na"]] = some [["Na\x00na"]] :=
      congrArg (Option.map fun x : ExecuteResult × Db => x.1.sqlite3ResultRow) (h 2 (by decide))
    exact absurd hrow (by decide)

theorem integers_kept_iff_ages :
    IntegersKept (echoing 2) openedObject "SELECT ?, ?" (.int 16) (.uint64 17) :=
  (integers_kept_iff (echoing 2) _ "SELECT ?, ?" (echoes_echoing 2 _) openedObject (by decide)
    (.int 16) (.uint64 17)).mpr (by decide)

/-- 2^63 is stored as a negative number, below 1, and comes back as one. -/
theorem uint64_turns_negative :
    storedInteger (bound (.uint64 9223372036854775808)) = some (-9223372036854775808) ∧
    (∃ d', executeSqliteSelect (echoing 2) 2 openedObject "SELECT ?, ?"
      [.uint64 9223372036854775808,.int 1] =
        some (selected [["-9223372036854775808","1"]],d')) ∧
    ¬IntegersKept (echoing 2) openedObject "SELECT ?, ?" (.uint64 9223372036854775808)
      (.int 1) := by
  refine ⟨by decide,⟨_,rfl⟩,fun h => ?_⟩
  obtain ⟨x,y,hx,hy,hcompare⟩ := h.order
  cases hx
  cases hy
  exact absurd hcompare (by decide)

end Samples

end Parameters
end AlephSql
