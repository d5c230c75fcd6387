import LintRepair.Shell.Syntax

/-!
Tokens of shell scripts and what they are called in complaints.
-/

namespace LintRepair.Shell

/-- Words with a meaning of their own, where a command may begin. -/
inductive Keyword where
  | not
  | caseOf
  | doThe
  | done
  | elseIf
  | elseThen
  | esac
  | fi
  | forEach
  | ifThe
  | inThe
  | thenThe
  | untilThe
  | whileThe
  | open
  | close
deriving DecidableEq, Repr

namespace Keyword

def table : List (Keyword × String) :=
  [(.not, "!"), (.caseOf, "case"), (.doThe, "do"), (.done, "done"), (.elseIf, "elif"),
    (.elseThen, "else"), (.esac, "esac"), (.fi, "fi"), (.forEach, "for"), (.ifThe, "if"),
    (.inThe, "in"), (.thenThe, "then"), (.untilThe, "until"), (.whileThe, "while"),
    (.open, "\x7b"), (.close, "\x7d")]

def text (k : Keyword) : String := (table.lookup k).getD ""

def ofText? (s : Raw) : Option Keyword :=
  (table.find? fun (_, text) => text.toList == s).map (·.1)

/-- Whether a keyword ends the commands before it. -/
def closes : Keyword → Bool
  | .doThe | .done | .elseIf | .elseThen | .esac | .fi | .thenThe | .close => true
  | _ => false

end Keyword

/-- Tokens. What a word or a redirection is has to be asked separately. -/
inductive Token where
  | endOfFile
  | newline
  | semicolon
  | ampersand
  | andThen
  | orElse
  | pipe
  | openGroup
  | closeGroup
  | endCase
  | redirection
  | word
  | keyword (keyword : Keyword)
deriving DecidableEq, Repr

namespace Token

def name : Token → String
  | .endOfFile => "end of file"
  | .newline => "newline"
  | .semicolon => "\";\""
  | .ampersand => "\"&\""
  | .andThen => "\"&&\""
  | .orElse => "\"||\""
  | .pipe => "\"|\""
  | .openGroup => "\"(\""
  | .closeGroup => "\")\""
  | .endCase => "\";;\""
  | .redirection => "redirection"
  | .word => "word"
  | .keyword k => "\"" ++ k.text ++ "\""

/-- Whether a token ends the commands before it. -/
def closes : Token → Bool
  | .endOfFile | .closeGroup | .endCase => true
  | .keyword k => k.closes
  | _ => false

end Token

end LintRepair.Shell
