import AlephSql.Parameters

/-! How much of its SQL text an operation runs. A preparation compiles the first statement of
the text; the operations pass no tail pointer and never come to the rest. -/
namespace AlephSql
namespace WholeText

open Sqlite Database Failure FailedCalls Parameters ResultRows

/-- What a prepared handle runs: the first statement of its text. `statements` is how the
library divides a text. -/
def runs (statements : String → List String) (s : StmtId) (h : History) : List String :=
  ((textOf s h).elim [] statements).take 1

/-- The statements run to completion by the calls so far, in the order of their completion. -/
def completed (statements : String → List String) : History → List String
  | [] => []
  | .step (some s) ret :: h =>
    if ret = SQLITE_DONE then completed statements h ++ runs statements s h
    else completed statements h
  | _ :: h => completed statements h

/-- A text without a statement compiles to a null statement, a null statement cannot be stepped,
and there is always a message. -/
structure TextLaws (E : Engine) (statements : String → List String) : Prop where
  empty : ∀ h conn text, statements text = [] → E.prepareV2 h conn text = (SQLITE_OK,none)
  null : ∀ h, E.step h none = SQLITE_MISUSE
  message : ∀ h conn, E.errmsg h conn ≠ ""

/-- What a call that makes `after` of `before` owes to its text: with success all statements
have been run to completion, and otherwise there is an error. -/
structure Whole (statements : String → List String) (sql : String) (before after : Db)
    (r : ExecuteResult) : Prop where
  success : r.sqlite3ExecuteStatus = true → ∃ done : List String,
    completed statements after.calls = completed statements before.calls ++ done ∧
      (statements sql).Sublist done
  failure : r.sqlite3ExecuteStatus = false → r.sqlite3ExecuteError ≠ ""

/-- The text holds no statement besides the one that its preparation compiles. -/
def NoTail (statements : String → List String) (sql : String) : Prop :=
  (statements sql).Sublist ((statements (cString sql)).take 1)

/-- An `execute_sqlite` that comes to a completed step has been given no further statement. -/
def ExecuteCovers (E : Engine) (statements : String → List String) (d : Db) (sql : String)
    (args : List Paramter) : Prop :=
  d.self.sqlitePtr ≠ none → prepareRet E d sql = SQLITE_OK →
    stepRet E d sql args = SQLITE_DONE → NoTail statements sql

/-- An `execute_sqlite_select` that comes to its loop has been given nothing to run, or one
statement, and the stream of that ends with `SQLITE_DONE`. -/
def SelectCovers (E : Engine) (statements : String → List String) (d : Db) (sql : String)
    (args : List Paramter) : Prop :=
  d.self.sqlitePtr ≠ none → prepareRet E d sql = SQLITE_OK → ∀ rows code e,
    Stream E (counted E d sql args).1 (counted E d sql args).2 rows code e →
      statements sql = [] ∨ (code = SQLITE_DONE ∧ NoTail statements sql)

theorem noTail_iff {statements : String → List String} {sql : String} (h : ZeroFree sql) :
    NoTail statements sql ↔ (statements sql).length ≤ 1 := by
  rw [NoTail,(cString_eq_iff sql).mpr h]
  constructor
  · intro hsub
    exact hsub.length_le.trans (List.length_take_le 1 _)
  · intro hle
    rw [List.take_of_length_le hle]

section Calls

variable {E : Engine} {statements : String → List String} {d d' : Db} {sql text : String}
  {args : List Paramter}

def FromText (text : String) (d : Db) : Prop :=
  ∀ s, d.self.sqliteStmt = some s → textOf s d.calls = some text

theorem FromText.log (h : FromText text d) {e : Event} (he : ∀ s, names s e = none) :
    FromText text (d.log e) :=
  fun s hs => (latest_cons_none (he s) _).trans (h s hs)

theorem fromText_prepareV2 : FromText (cString sql) (d.prepareV2 E sql).2 := by
  intro s hs
  have hout : (E.prepareV2 d.calls d.self.sqlitePtr (cString sql)).2 = some s := hs
  simp [textOf,Db.prepareV2,latest_cons,names,hout]

theorem completed_cons_other {e : Event} (he : isStep e = false) (h : History) :
    completed statements (e :: h) = completed statements h := by
  cases e with
  | step => cases he
  | _ => rfl

structure At (statements : String → List String) (text : String) (done : List String)
    (d : Db) : Prop where
  text : FromText text d
  done : completed statements d.calls = done

variable {done : List String}

theorem At.log (h : At statements text done d) {e : Event} (hnames : ∀ s, names s e = none)
    (hstep : isStep e = false) : At statements text done (d.log e) :=
  ⟨h.text.log hnames,(completed_cons_other hstep _).trans h.done⟩

theorem at_prepareV2 :
    At statements (cString sql) (completed statements d.calls) (d.prepareV2 E sql).2 :=
  ⟨fromText_prepareV2,completed_cons_other rfl _⟩

theorem At.bindArgs (h : At statements text done d) (index : ℕ) :
    At statements text done (bindArgs E index args d) :=
  bindArgs_rule (fun _ _ _ hd => hd.log (fun _ => rfl) rfl) h index

theorem at_bindArgs : At statements (cString sql) (completed statements d.calls)
    (Database.bindArgs E 1 args (d.prepareV2 E sql).2) :=
  at_prepareV2.bindArgs 1

theorem At.step (hnull : ∀ h, E.step h none = SQLITE_MISUSE) (h : At statements text done d) :
    At statements text
      (if (d.step E).1 = SQLITE_DONE then done ++ (statements text).take 1 else done)
      (d.step E).2 := by
  refine ⟨h.text.log fun _ => rfl,?_⟩
  obtain ⟨⟨ptr,stmt⟩,calls⟩ := d
  cases stmt with
  | none =>
    have hmisuse : E.step calls none ≠ SQLITE_DONE := by
      rw [hnull]
      decide
    simpa [Db.step,Db.log,completed,hmisuse] using h.done
  | some s =>
    have htext : textOf s calls = some text := h.text s rfl
    have hdone : completed statements calls = done := h.done
    by_cases hret : E.step calls (some s) = SQLITE_DONE <;>
      simp [Db.step,Db.log,completed,runs,hret,htext,hdone]

theorem At.stream (hnull : ∀ h, E.step h none = SQLITE_MISUSE) {count : ℕ}
    {rows : List (List (Option String))} {code : ℤ} (h : At statements text done d)
    (hstream : Stream E count d rows code d') :
    At statements text (if code = SQLITE_DONE then done ++ (statements text).take 1 else done)
      d' := by
  induction hstream with
  | ended => exact h.step hnull
  | @row d d' rows code hrow rest ih =>
    have hstep := h.step hnull
    rw [hrow,if_neg (by decide)] at hstep
    exact ih (columns_rule (fun _ _ hd => hd.log (fun _ => rfl) rfl) hstep count 0)

end Calls

section Exits

variable {E : Engine} {statements : String → List String} {d d' : Db} {sql : String}
  {args : List Paramter} {r : ExecuteResult}

theorem Whole.of_failed (hstatus : r.sqlite3ExecuteStatus = false)
    (herror : r.sqlite3ExecuteError ≠ "") : Whole statements sql d d' r := by
  refine ⟨fun h => ?_,fun _ => herror⟩
  rw [hstatus] at h
  cases h

theorem whole_of_success {done : List String} (hstatus : r.sqlite3ExecuteStatus = true)
    (hdone : completed statements d'.calls = completed statements d.calls ++ done) :
    Whole statements sql d d' r ↔ (statements sql).Sublist done := by
  constructor
  · intro h
    obtain ⟨done',hdone',hsub⟩ := h.success hstatus
    rwa [List.append_cancel_left (hdone.symm.trans hdone')]
  · intro h
    refine ⟨fun _ => ⟨done,hdone,h⟩,fun hfailed => ?_⟩
    rw [hstatus] at hfailed
    cases hfailed

theorem whole_notOpen : Whole statements sql d d' notOpen := .of_failed rfl (by decide)

theorem completed_stepped (hE : TextLaws E statements)
    (hdone : stepRet E d sql args = SQLITE_DONE) :
    completed statements (stepped E d sql args).calls =
      completed statements d.calls ++ (statements (cString sql)).take 1 := by
  have hbound : At statements (cString sql) (completed statements d.calls)
      (bindArgs E 1 args (d.prepareV2 E sql).2) := at_bindArgs
  have hstep : ((bindArgs E 1 args (d.prepareV2 E sql).2).step E).1 = SQLITE_DONE := hdone
  have hat := hbound.step hE.null
  rw [if_pos hstep] at hat
  exact hat.done

theorem whole_executeSqlite_iff (hE : TextLaws E statements) :
    Whole statements sql d (executeSqlite E d sql args).2 (executeSqlite E d sql args).1 ↔
      ExecuteCovers E statements d sql args := by
  rcases executeSqlite_cases E d sql args with ⟨hopen,hx⟩ | ⟨hopen,hprepare,hx⟩ |
    ⟨hopen,hprepare,hdone,hx⟩ | ⟨hopen,hprepare,hdone,hx⟩
  · rw [hx]
    exact iff_of_true whole_notOpen fun h => absurd hopen h
  · rw [hx]
    exact iff_of_true (.of_failed rfl (hE.message _ _)) fun _ h => absurd h hprepare
  · have hcompleted : completed statements ((stepped E d sql args).changes E).2.calls =
        completed statements d.calls ++ (statements (cString sql)).take 1 :=
      (completed_cons_other rfl _).trans (completed_stepped hE hdone)
    rw [hx,whole_of_success rfl hcompleted]
    exact ⟨fun h _ _ _ => h,fun h => h hopen hprepare hdone⟩
  · rw [hx]
    refine iff_of_true (.of_failed rfl ?_) fun _ _ h => absurd h hdone
    simp [stepFailed]

theorem completed_select (hE : TextLaws E statements) {rows : List (List (Option String))}
    {code : ℤ}
    (h : Stream E (counted E d sql args).1 (counted E d sql args).2 rows code d') :
    completed statements d'.calls = completed statements d.calls ++
      if code = SQLITE_DONE then (statements (cString sql)).take 1 else [] := by
  have hat : At statements (cString sql) (completed statements d.calls)
      (counted E d sql args).2 := at_bindArgs.log (fun _ => rfl) rfl
  rw [(hat.stream hE.null h).done]
  split
  · rfl
  · rw [List.append_nil]

theorem whole_stream_iff (hE : TextLaws E statements) {rows : List (List (Option String))}
    {code : ℤ} {fetched : List (List String)}
    (h : Stream E (counted E d sql args).1 (counted E d sql args).2 rows code d') :
    Whole statements sql d d' (selected fetched) ↔
      statements sql = [] ∨ (code = SQLITE_DONE ∧ NoTail statements sql) := by
  rw [whole_of_success rfl (completed_select hE h)]
  by_cases hcode : code = SQLITE_DONE
  · rw [if_pos hcode]
    constructor
    · intro hsub
      exact .inr ⟨hcode,hsub⟩
    · rintro (hnone | ⟨-,hsub⟩)
      · rw [hnone]
        exact List.nil_sublist _
      · exact hsub
  · simp [hcode]

theorem whole_executeSqliteSelect_iff (hE : TextLaws E statements) :
    (∀ fuel r d', executeSqliteSelect E fuel d sql args = some (r,d') →
        Whole statements sql d d' r) ↔
      SelectCovers E statements d sql args := by
  constructor
  · intro h hopen hprepare rows code e hstream
    have hresult := select_of_stream hopen hprepare hstream (Nat.lt_succ_self _)
    exact (whole_stream_iff hE hstream).mp (h _ _ _ hresult)
  · intro h fuel r d' hr
    rcases executeSqliteSelect_cases hr with ⟨-,hnot,-⟩ | ⟨-,-,hfailed,-⟩ |
      ⟨hopen,hprepare,fetched,hselected,hfetched⟩
    · rw [hnot]
      exact whole_notOpen
    · rw [hfailed]
      exact .of_failed rfl (hE.message _ _)
    · rw [hselected]
      obtain ⟨rows,code,hstream⟩ := stream_of_fetchRows hfetched
      exact (whole_stream_iff hE hstream).mpr (h hopen hprepare rows code d' hstream)

/-- A text without a statement fails an `execute_sqlite`, and a select succeeds on it. -/
theorem of_no_statement (hE : TextLaws E statements) (hopen : d.self.sqlitePtr ≠ none)
    (h : statements (cString sql) = []) :
    (executeSqlite E d sql args).1.sqlite3ExecuteStatus = false ∧
    ∃ d', ∀ fuel, 0 < fuel → executeSqliteSelect E fuel d sql args = some (selected [],d') := by
  have hanswer := hE.empty d.calls d.self.sqlitePtr _ h
  have hprepare : prepareRet E d sql = SQLITE_OK := congrArg Prod.fst hanswer
  have hstmt : (bindArgs E 1 args (d.prepareV2 E sql).2).self.sqliteStmt = none := by
    rw [bindArgs_self]
    exact congrArg Prod.snd hanswer
  have hmisuse : ∀ h, E.step h (bindArgs E 1 args (d.prepareV2 E sql).2).self.sqliteStmt ≠
      SQLITE_DONE ∧ E.step h (bindArgs E 1 args (d.prepareV2 E sql).2).self.sqliteStmt ≠
        SQLITE_ROW := by
    intro h
    rw [hstmt,hE.null]
    decide
  constructor
  · apply Bool.eq_false_iff.mpr
    intro hsuccess
    exact (hmisuse _).1 (executeSqlite_success hsuccess).1
  · exact ⟨_,fun fuel hfuel => select_of_stream hopen hprepare (.ended (hmisuse _).2) hfuel⟩

end Exits

/-- A success means that the whole text has been run if and only if there was no more than one
statement to run, for a select with the addition that its stream has ended well. -/
theorem whole_text_run_iff (E : Engine) (statements : String → List String)
    (hE : TextLaws E statements) (d : Db) (sql : String) (args : List Paramter) :
    (Whole statements sql d (executeSqlite E d sql args).2 (executeSqlite E d sql args).1 ↔
      ExecuteCovers E statements d sql args) ∧
    ((∀ fuel r d', executeSqliteSelect E fuel d sql args = some (r,d') →
        Whole statements sql d d' r) ↔
      SelectCovers E statements d sql args) ∧
    (ZeroFree sql → (NoTail statements sql ↔ (statements sql).length ≤ 1)) :=
  ⟨whole_executeSqlite_iff hE,whole_executeSqliteSelect_iff hE,noTail_iff⟩

section Samples

def separated (text : String) : List String :=
  ((text.toList.splitOn ';').filter fun q => q.any fun c => !c.isWhitespace).map String.ofList

def compiling (ret : ℤ) : Engine :=
  { answering ret with
    prepareV2 := fun h conn text =>
      if separated text = [] then (SQLITE_OK,none) else (answering ret).prepareV2 h conn text }

theorem textLaws_compiling (ret : ℤ) : TextLaws (compiling ret) separated :=
  ⟨fun _ _ _ h => if_pos h,fun _ => rfl,by simp [compiling,answering,sampleEngine]⟩

theorem whole_text_run_iff_one_statement :
    Whole separated "DELETE FROM test;" openedObject
      (executeSqlite (compiling SQLITE_DONE) openedObject "DELETE FROM test;" []).2
      (executeSqlite (compiling SQLITE_DONE) openedObject "DELETE FROM test;" []).1 := by
  have hshort : NoTail separated "DELETE FROM test;" := by
    apply (noTail_iff (by simp [ZeroFree])).mpr
    decide
  have h := whole_text_run_iff _ separated (textLaws_compiling SQLITE_DONE) openedObject
    "DELETE FROM test;" []
  exact h.1.mpr fun _ _ _ => hshort

def twoInserts : String :=
  "INSERT INTO test (age) VALUES (16); INSERT INTO test (age) VALUES (17)"

def selectAndDelete : String := "SELECT age FROM test; DELETE FROM test"

theorem not_noTail {sql : String} (hfree : ZeroFree sql) (h : 1 < (separated sql).length) :
    ¬NoTail separated sql := by
  rw [noTail_iff hfree]
  omega

theorem execute_skips :
    (executeSqlite (compiling SQLITE_DONE) openedObject twoInserts
      []).1.sqlite3ExecuteStatus = true ∧
    completed separated (executeSqlite (compiling SQLITE_DONE) openedObject twoInserts
      []).2.calls = ["INSERT INTO test (age) VALUES (16)"] ∧
    ¬Whole separated twoInserts openedObject
      (executeSqlite (compiling SQLITE_DONE) openedObject twoInserts []).2
      (executeSqlite (compiling SQLITE_DONE) openedObject twoInserts []).1 := by
  refine ⟨rfl,by decide,fun h => ?_⟩
  have hshort := (whole_executeSqlite_iff (textLaws_compiling _)).mp h (by decide) rfl rfl
  exact not_noTail (by simp [twoInserts,ZeroFree]) (by decide) hshort

theorem select_skips : ∃ r d',
    executeSqliteSelect (compiling SQLITE_DONE) 1 openedObject selectAndDelete [] = some (r,d') ∧
    r.sqlite3ExecuteStatus = true ∧ completed separated d'.calls = ["SELECT age FROM test"] ∧
    ¬Whole separated selectAndDelete openedObject d' r := by
  refine ⟨_,_,rfl,rfl,by decide,fun h => ?_⟩
  rcases (whole_stream_iff (textLaws_compiling _) (.ended (by decide))).mp h with
    hnone | ⟨-,hshort⟩
  · exact absurd hnone (by decide)
  · exact not_noTail (by simp [selectAndDelete,ZeroFree]) (by decide) hshort

theorem select_ignores_busy :
    (executeSqlite (compiling SQLITE_BUSY) openedObject "DELETE FROM test"
      []).1.sqlite3ExecuteStatus = false ∧
    ∃ r d', executeSqliteSelect (compiling SQLITE_BUSY) 1 openedObject "DELETE FROM test" [] =
        some (r,d') ∧
      r.sqlite3ExecuteStatus = true ∧ completed separated d'.calls = [] ∧
      ¬Whole separated "DELETE FROM test" openedObject d' r := by
  refine ⟨rfl,_,_,rfl,rfl,rfl,fun h => ?_⟩
  obtain ⟨done,hdone,hsub⟩ := h.success rfl
  obtain rfl : [] = done := hdone
  exact absurd hsub (by decide)

/-- Both operations report success for texts that they have not run to the end. -/
theorem success_without_whole_text : TextLaws (compiling SQLITE_DONE) separated ∧
    TextLaws (compiling SQLITE_BUSY) separated ∧
    ((executeSqlite (compiling SQLITE_DONE) openedObject twoInserts
        []).1.sqlite3ExecuteStatus = true ∧
      ¬Whole separated twoInserts openedObject
        (executeSqlite (compiling SQLITE_DONE) openedObject twoInserts []).2
        (executeSqlite (compiling SQLITE_DONE) openedObject twoInserts []).1) ∧
    (∃ r d', executeSqliteSelect (compiling SQLITE_DONE) 1 openedObject selectAndDelete [] =
        some (r,d') ∧
      r.sqlite3ExecuteStatus = true ∧ ¬Whole separated selectAndDelete openedObject d' r) ∧
    ∃ r d', executeSqliteSelect (compiling SQLITE_BUSY) 1 openedObject "DELETE FROM test" [] =
        some (r,d') ∧
      r.sqlite3ExecuteStatus = true ∧ ¬Whole separated "DELETE FROM test" openedObject d' r := by
  obtain ⟨hinserted,-,htail⟩ := execute_skips
  obtain ⟨r,d',hselect,hselected,-,hskipped⟩ := select_skips
  obtain ⟨-,r',e',hbusy,hignored,-,hnot⟩ := select_ignores_busy
  exact ⟨textLaws_compiling _,textLaws_compiling _,⟨hinserted,htail⟩,
    ⟨r,d',hselect,hselected,hskipped⟩,r',e',hbusy,hignored,hnot⟩

end Samples

end WholeText
end AlephSql
