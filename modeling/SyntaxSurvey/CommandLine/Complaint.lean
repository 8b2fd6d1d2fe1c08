import SyntaxSurvey.CommandLine.Flag
import SyntaxSurvey.Trouble

/-! What can be wrong with a command line, and what the user is told then. -/

namespace SyntaxSurvey.CommandLine

inductive Complaint where
  | rootMissing
  | unknownMode (text : String)
  | valueMissing (flag : Flag)
  | valueNeedless (flag : Flag) (value : String)
  | notANumber (flag : Flag) (value : String)
  | ambiguous (text : String) (spellings : List String)
  | unrecognized (texts : List String)
  | scaleNotPositive
  deriving DecidableEq, Repr

def Complaint.message : Complaint → String
  | .rootMissing => "the following arguments are required: repo_path"
  | .unknownMode text =>
    s!"argument mode: invalid choice: {Text.quoted text} (choose from 'parse', 'images')"
  | .valueMissing flag => s!"argument {flag.label}: expected one argument"
  | .valueNeedless flag value =>
    s!"argument {flag.label}: ignored explicit argument {Text.quoted value}"
  | .notANumber flag value => s!"argument {flag.label}: invalid float value: {Text.quoted value}"
  | .ambiguous text spellings =>
    s!"ambiguous option: {text} could match " ++ ", ".intercalate spellings
  | .unrecognized texts => "unrecognized arguments: " ++ " ".intercalate texts
  | .scaleNotPositive => "--scale must be positive"

/-- Why the program ends before its work is done. -/
inductive Stop where
  /-- Help was asked for. -/
  | help
  /-- Something is wrong with the command line. -/
  | misuse (complaint : Complaint)
  /-- A trouble came up that nothing is prepared for. -/
  | broken (trouble : Trouble)
  deriving DecidableEq, Repr

def usage : String :=
  "usage: repo-parser [-h] [--suffix SUFFIX] [--output-dir OUTPUT_DIR]\n"
    ++ "                   [--scale SCALE] [--report REPORT] [--no-progress]\n"
    ++ "                   [--verbose] [--detailed-logging] [--log-file LOG_FILE]\n"
    ++ "                   repo_path [\x7bparse,images\x7d]\n"

def help : String :=
  usage ++ "
Parse every Python file in a repository and report or draw the parse trees

positional arguments:
  repo_path             Repository root to walk
  \x7bparse,images\x7d        What to do with each file (default: parse)

options:
  -h, --help            show this help message and exit
  --suffix SUFFIX       Only process files whose name ends with this (default:
                        .py)
  --output-dir OUTPUT_DIR
                        Image directory for images mode (default: <repo-
                        path>_parse_trees)
  --scale SCALE         Tree image scale (default: 1.2)
  --report REPORT       Write a JSON report of every file and the totals
  --no-progress         Disable the progress bar
  --verbose, -v         Enable verbose logging
  --detailed-logging    Enable detailed logging (thread, file/line)
  --log-file LOG_FILE   Optional rotating log file path

Modes:
  parse   - Just parse files and report SUCCESS/FAILED (default)
  images  - Also save every parse tree as a PNG image

Example:
  repo-parser ~/src/my_python_repo
  repo-parser ~/src/my_python_repo images
"

namespace Stop

def status : Stop → Nat
  | .help => 0
  | .misuse _ => 2
  | .broken _ => 1

def output : Stop → String
  | .help => CommandLine.help
  | _ => ""

def complaint : Stop → String
  | .help => ""
  | .misuse complaint => usage ++ s!"repo-parser: error: {complaint.message}\n"
  | .broken trouble => trouble.line ++ "\n"

end Stop

end SyntaxSurvey.CommandLine
