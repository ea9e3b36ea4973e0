import AlephSql.MysqlConnect
import Mathlib.Data.List.Basic

/-! The lines that `logger` writes, and how much of what was logged can be read back from them. Text
is cut at delimiters, and each cut undoes the printing of a part that is free of its delimiter. -/
namespace Delimited

variable {α : Type*} [DecidableEq α] {c : α} {a b : List α}

def cut (c : α) : List α → Option (List α × List α)
  | [] => none
  | x :: l => if x = c then some ([],l) else (cut c l).map fun p => (x :: p.1,p.2)

def cutLast (c : α) (l : List α) : Option (List α × List α) :=
  (cut c l.reverse).map fun p => (p.2.reverse,p.1.reverse)

/-- The parts that end in `c`, and what is left after the last of them, if anything. -/
def blocks (c : α) : List α → List (List α)
  | [] => []
  | x :: l =>
    if x = c then [] :: blocks c l
    else match blocks c l with
      | [] => [[x]]
      | y :: rest => (x :: y) :: rest

theorem cut_append (h : c ∉ a) (b : List α) : cut c (a ++ c :: b) = some (a,b) := by
  induction a with
  | nil => simp [cut]
  | cons x a ih =>
    obtain ⟨hx,ha⟩ := not_or.mp (List.mem_cons.not.mp h)
    simp [cut,Ne.symm hx,ih ha]

theorem cutLast_append (a : List α) (h : c ∉ b) : cutLast c (a ++ c :: b) = some (a,b) := by
  have hreverse : (a ++ c :: b).reverse = b.reverse ++ c :: a.reverse := by simp
  rw [cutLast,hreverse,cut_append (by simpa using h)]
  simp

theorem blocks_append (h : c ∉ a) (b : List α) : blocks c (a ++ c :: b) = a :: blocks c b := by
  induction a with
  | nil => simp [blocks]
  | cons x a ih =>
    obtain ⟨hx,ha⟩ := not_or.mp (List.mem_cons.not.mp h)
    simp [blocks,Ne.symm hx,ih ha]

theorem blocks_flatMap {l : List (List α)} (h : ∀ a ∈ l, c ∉ a) :
    blocks c (l.flatMap (· ++ [c])) = l := by
  induction l with
  | nil => rfl
  | cons a l ih =>
    rw [List.flatMap_cons,List.append_assoc,List.singleton_append,
      blocks_append (h a List.mem_cons_self),ih fun b hb => h b (List.mem_cons_of_mem a hb)]

end Delimited

namespace AlephSql
namespace Logger

open Mysql (LoggerLevel)
open Delimited

/-- The arguments of `outopt_logger`. -/
structure Line where
  loggerMessage : String
  loggerLevel : LoggerLevel
  loggerLocalFile : String
  loggerLocalFunction : String
  loggerLocalLineNumber : ℤ
  deriving DecidableEq, Repr

/-- `level_to_str` on the enumerators. -/
def levelToStr : LoggerLevel → String
  | .info => "INFO"
  | .error => "ERROR"
  | .warning => "WARNING"

/-- `outopt_logger_impl`: what goes to `std::cout`. -/
def outoptLoggerImpl (loggerMessage loggerLevel loggerLocalFile loggerLocalFunction : String)
    (loggerLocalLineNumber : ℤ) : String :=
  "[" ++ loggerLevel ++ "]" ++ " - " ++ loggerMessage ++ " - " ++ " LOCAL <" ++ loggerLocalFile ++
    "|" ++ toString loggerLocalLineNumber ++ "|" ++ loggerLocalFunction ++ ">" ++ "\n"

def defaultMessage : String := "NEW LOGGER"

/-- `outopt_logger`. -/
def outoptLogger (l : Line) : String :=
  if l.loggerMessage = "" then
    outoptLoggerImpl defaultMessage (levelToStr l.loggerLevel) l.loggerLocalFile
      l.loggerLocalFunction l.loggerLocalLineNumber
  else
    outoptLoggerImpl l.loggerMessage (levelToStr l.loggerLevel) l.loggerLocalFile
      l.loggerLocalFunction l.loggerLocalLineNumber

/-- The line as it is shown: an empty message is replaced. -/
def shown (l : Line) : Line :=
  { l with loggerMessage := if l.loggerMessage = "" then defaultMessage else l.loggerMessage }

/-- A line that keeps to its place in the log: no line break in it, no opening bracket in the file
name and no bar in the function name. -/
structure Printable (l : Line) : Prop where
  message : '\n' ∉ l.loggerMessage.toList
  file : '\n' ∉ l.loggerLocalFile.toList
  function : '\n' ∉ l.loggerLocalFunction.toList
  bracket : '<' ∉ l.loggerLocalFile.toList
  bar : '|' ∉ l.loggerLocalFunction.toList

section Read

def readLevel (cs : List Char) : Option LoggerLevel :=
  if cs = (levelToStr .info).toList then some .info
  else if cs = (levelToStr .error).toList then some .error
  else if cs = (levelToStr .warning).toList then some .warning
  else none

def readNumber : List Char → ℤ
  | '-' :: cs => -(Nat.ofDigitChars 10 cs 0 : ℕ)
  | cs => (Nat.ofDigitChars 10 cs 0 : ℕ)

/-- A line of the log, read from its end: what the message holds does not matter. -/
def readLine (cs : List Char) : Option Line :=
  (cs.dropSuffix? ['>']).bind fun body =>
  (cutLast '|' body).bind fun function =>
  (cutLast '|' function.1).bind fun number =>
  (cutLast '<' number.1).bind fun file =>
  (file.1.dropSuffix? " -  LOCAL ".toList).bind fun head =>
  (cut ']' head).bind fun level =>
  (level.1.dropPrefix? ['[']).bind fun name =>
  (readLevel name).bind fun loggerLevel =>
  (level.2.dropPrefix? " - ".toList).map fun message =>
    { loggerMessage := String.ofList message
      loggerLevel := loggerLevel
      loggerLocalFile := String.ofList file.2
      loggerLocalFunction := String.ofList function.2
      loggerLocalLineNumber := readNumber number.2 }

def readLog (text : String) : Option (List Line) := (blocks '\n' text.toList).mapM readLine

theorem readLevel_levelToStr (level : LoggerLevel) :
    readLevel (levelToStr level).toList = some level := by
  cases level <;> decide

theorem mem_toString {z : ℤ} {c : Char} (h : c ∈ (toString z).toList) :
    c = '-' ∨ c.isDigit = true := by
  have hdigits : ∀ n : ℕ, c ∈ n.repr.toList → c.isDigit = true := by
    intro n hn
    rw [Nat.toList_repr] at hn
    exact Nat.isDigit_of_mem_toDigits (by decide) (by decide) hn
  cases z with
  | ofNat n => exact .inr (hdigits n h)
  | negSucc n =>
    have htext : toString (Int.negSucc n) = "-" ++ (n+1).repr := rfl
    rw [htext,String.toList_append,List.mem_append] at h
    rcases h with hsign | hdigit
    · exact .inl (by simpa using hsign)
    · exact .inr (hdigits _ hdigit)

theorem readNumber_toString (z : ℤ) : readNumber (toString z).toList = z := by
  cases z with
  | ofNat n =>
    have htext : (toString (Int.ofNat n)).toList = Nat.toDigits 10 n := Nat.toList_repr
    rw [htext]
    have hvalue : (Nat.ofDigitChars 10 (Nat.toDigits 10 n) 0 : ℤ) = n :=
      congrArg Nat.cast (Nat.ofDigitChars_toDigits (by decide) (by decide))
    unfold readNumber
    split
    · next cs hsign =>
      have hdigit := Nat.isDigit_of_mem_toDigits (b := 10) (n := n) (c := '-') (by decide)
        (by decide) (by rw [hsign]; exact List.mem_cons_self)
      exact absurd hdigit (by decide)
    · exact hvalue
  | negSucc n =>
    have htext : (toString (Int.negSucc n)).toList = '-' :: Nat.toDigits 10 (n+1) := by
      have hparts : toString (Int.negSucc n) = "-" ++ (n+1).repr := rfl
      rw [hparts,String.toList_append,Nat.toList_repr]
      rfl
    have hvalue : (Nat.ofDigitChars 10 (Nat.toDigits 10 (n+1)) 0 : ℤ) = (n+1 : ℕ) :=
      congrArg Nat.cast (Nat.ofDigitChars_toDigits (by decide) (by decide))
    rw [htext,readNumber,hvalue]
    rfl

def upToMessage (l : Line) : List Char :=
  ('[' :: (levelToStr l.loggerLevel).toList) ++ ']' :: (" - ".toList ++ l.loggerMessage.toList)

def upToFile (l : Line) : List Char :=
  upToMessage l ++ " -  LOCAL ".toList ++ '<' :: l.loggerLocalFile.toList

def upToNumber (l : Line) : List Char :=
  upToFile l ++ '|' :: (toString l.loggerLocalLineNumber).toList

def upToFunction (l : Line) : List Char := upToNumber l ++ '|' :: l.loggerLocalFunction.toList

theorem outoptLogger_eq (l : Line) :
    (outoptLogger l).toList = upToFunction (shown l) ++ ['>'] ++ ['\n'] := by
  by_cases h : l.loggerMessage = ""
  · simp [outoptLogger,outoptLoggerImpl,shown,upToFunction,upToNumber,upToFile,upToMessage,h]
  · simp [outoptLogger,outoptLoggerImpl,shown,upToFunction,upToNumber,upToFile,upToMessage,h]

theorem not_mem_toString {c : Char} (hsign : c ≠ '-') (hdigit : c.isDigit = false) (z : ℤ) :
    c ∉ (toString z).toList := fun h => by
  rcases mem_toString h with h | h
  · exact hsign h
  · rw [hdigit] at h
    cases h

theorem dropSuffix_append (a b : List Char) : (a ++ b).dropSuffix? b = some a :=
  List.dropSuffix?_eq_some_iff.mpr ⟨b,rfl,beq_self_eq_true b⟩

theorem dropPrefix_append (a b : List Char) : (a ++ b).dropPrefix? a = some b :=
  List.dropPrefix?_eq_some_iff.mpr ⟨a,rfl,beq_self_eq_true a⟩

variable {l : Line}

theorem newline_not_mem (h : Printable l) : '\n' ∉ upToFunction l ++ ['>'] := by
  have hlevel : '\n' ∉ (levelToStr l.loggerLevel).toList := by cases l.loggerLevel <;> decide
  have hnumber := not_mem_toString (c := '\n') (by decide) (by decide) l.loggerLocalLineNumber
  simp only [upToFunction,upToNumber,upToFile,upToMessage,List.mem_append,List.mem_cons,not_or]
  exact ⟨⟨⟨⟨⟨⟨⟨by decide,hlevel⟩,by decide,by decide,h.message⟩,by decide⟩,by decide,h.file⟩,
    by decide,hnumber⟩,by decide,h.function⟩,by decide,List.not_mem_nil⟩

/-- Reading undoes printing, part by part from the end of the line. -/
theorem readLine_printed (h : Printable l) : readLine (upToFunction l ++ ['>']) = some l := by
  have hfunction :
      cutLast '|' (upToFunction l) = some (upToNumber l,l.loggerLocalFunction.toList) :=
    cutLast_append _ h.bar
  have hnumber : cutLast '|' (upToNumber l) =
      some (upToFile l,(toString l.loggerLocalLineNumber).toList) :=
    cutLast_append _ (not_mem_toString (by decide) (by decide) _)
  have hfile : cutLast '<' (upToFile l) =
      some (upToMessage l ++ " -  LOCAL ".toList,l.loggerLocalFile.toList) :=
    cutLast_append _ h.bracket
  have hlevel : ']' ∉ '[' :: (levelToStr l.loggerLevel).toList := by
    cases l.loggerLevel <;> decide
  have hmessage : cut ']' (upToMessage l) = some ('[' :: (levelToStr l.loggerLevel).toList,
      " - ".toList ++ l.loggerMessage.toList) := cut_append hlevel _
  have hname : ('[' :: (levelToStr l.loggerLevel).toList).dropPrefix? ['['] =
      some (levelToStr l.loggerLevel).toList := dropPrefix_append ['['] _
  simp only [readLine,dropSuffix_append,dropPrefix_append,hfunction,hnumber,hfile,hmessage,hname,
    readLevel_levelToStr,readNumber_toString,Option.bind_some,Option.map_some,String.ofList_toList]

theorem Printable.shown (h : Printable l) : Printable (shown l) := by
  refine ⟨?_,h.file,h.function,h.bracket,h.bar⟩
  unfold Logger.shown
  dsimp only
  split
  · decide
  · exact h.message

end Read

theorem log_read_back (ls : List Line) (h : ∀ l ∈ ls, Printable l) :
    readLog (String.join (ls.map outoptLogger)) = some (ls.map shown) := by
  have htext : (String.join (ls.map outoptLogger)).toList =
      (ls.map fun l => upToFunction (shown l) ++ ['>']).flatMap (· ++ ['\n']) := by
    rw [String.toList_join,List.flatMap_map,List.flatMap_map]
    exact List.flatMap_congr fun l _ => outoptLogger_eq l
  have hblocks : blocks '\n' (String.join (ls.map outoptLogger)).toList =
      ls.map fun l => upToFunction (shown l) ++ ['>'] := by
    rw [htext]
    refine blocks_flatMap fun a ha => ?_
    obtain ⟨l,hl,rfl⟩ := List.mem_map.mp ha
    exact newline_not_mem (h l hl).shown
  rw [readLog,hblocks]
  clear htext hblocks
  induction ls with
  | nil => rfl
  | cons l ls ih =>
    have hline := readLine_printed (h l List.mem_cons_self).shown
    have hrest := ih fun k hk => h k (List.mem_cons_of_mem l hk)
    simp [hline,hrest]

theorem log_read_back_two :
    readLog (String.join ([⟨"",.warning,"a.cc","f",1⟩,⟨"x -  LOCAL <b|2|g>",.error,"b|c.cc","g",12⟩]
      |>.map outoptLogger)) =
    some [⟨"NEW LOGGER",.warning,"a.cc","f",1⟩,⟨"x -  LOCAL <b|2|g>",.error,"b|c.cc","g",12⟩] := by
  have hread := log_read_back
    [⟨"",.warning,"a.cc","f",1⟩,⟨"x -  LOCAL <b|2|g>",.error,"b|c.cc","g",12⟩]
    (by
      intro l hl
      rcases List.mem_pair.mp hl with rfl | rfl
      · exact ⟨by decide,by decide,by decide,by decide,by decide⟩
      · exact ⟨by decide,by decide,by decide,by decide,by decide⟩)
  exact hread

/-- A message with a line break forges a line. -/
example : outoptLogger ⟨"x -  LOCAL <a|1|f>\n[ERROR] - y",.info,"a","f",1⟩ =
    outoptLogger ⟨"x",.info,"a","f",1⟩ ++ outoptLogger ⟨"y",.error,"a","f",1⟩ := by decide

end Logger
end AlephSql
