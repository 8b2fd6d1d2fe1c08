import SyntaxSurvey.Grammar.Python.Productions
import SyntaxSurvey.Grammar.Python.Terminals
import SyntaxSurvey.Grammar.Table

/-! Python 3 as a language, with a start for files, one for what is typed at a prompt, and one for
expressions. -/

namespace SyntaxSurvey.Grammar.Python

/-- What a text as a whole is taken for. -/
inductive Start where
  | file
  | statement
  | expression
  deriving DecidableEq, Repr

def Start.nonterminal : Start → String
  | .file => "file_input"
  | .statement => "single_input"
  | .expression => "eval_input"

def Start.productions : Start → List Production
  | .file =>
    [Production.plain "file_input" ["_stmts_and_newlines", ""],
      Production.plain "_stmts_and_newlines" [
        "_NEWLINE!", "stmt", "_stmts_and_newlines _NEWLINE!", "_stmts_and_newlines stmt"]].flatten
  | .statement =>
    Production.plain "single_input" ["_NEWLINE!", "simple_stmt", "compound_stmt _NEWLINE!"]
  | .expression =>
    [Production.plain "eval_input" ["testlist _newlines", "testlist"],
      Production.plain "_newlines" ["_NEWLINE!", "_newlines _NEWLINE!"]].flatten

def language (start : Start) : Language where
  start := start.nonterminal
  productions := start.productions ++ productions
  terminals := terminals
  ignored := ignored
  alwaysScanned := ["_NEWLINE"]

def table (start : Start) : Table :=
  Table.ofLanguage (language start)

end SyntaxSurvey.Grammar.Python
