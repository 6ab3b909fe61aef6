import Mathlib.Data.List.Forall2
import Monkey.Session
import Monkey.Syntax.Bare
import Monkey.Tiling

namespace Monkey

/-- What the token is, wherever it stands. -/
def Token.wording (t : Token) : TokenKind × String := (t.kind, t.literal)

/-- The tokens of a text, the end token included, wherever they stand. -/
def wording (source : String) : List (TokenKind × String) := (lex source).map Token.wording

/-- The text is made of these, in order, with some blanks between every two. -/
inductive Spaced : List String → String → Prop
  | nil : Spaced [] ""
  | last (text : String) : Spaced [text] text
  | cons {text next blanks rest : String} {texts : List String} : blanks ≠ "" → (∀ c ∈ blanks.toList, isBlank c) →
      Spaced (next :: texts) rest → Spaced (text :: next :: texts) (text ++ blanks ++ rest)

/-- The one text has the one token where the other has the other. -/
def AtSameIndex (source source' : String) (t t' : Token) : Prop :=
  ∃ k : Nat, (lex source)[k]? = some t ∧ (lex source')[k]? = some t'

/-- The errors are told in the same words, and sit on tokens with the same index. -/
structure SameMistake (source source' : String) (e e' : ParseError) : Prop where
  message : e.message = e'.message
  sits : ∃ t t', AtSameIndex source source' t t' ∧ e.span = t.span ∧ e'.span = t'.span

/-- What is shown of an outcome. -/
inductive Shown where
  | parseErrors (messages : List String)
  | value (kind : Kind) (text : String)
  | noValue
  | unfinished
  deriving DecidableEq

def Outcome.shown : Outcome → Shown
  | .parseErrors errors => .parseErrors (errors.map (·.message))
  | .value v => .value v.kind v.inspect
  | .noValue => .noValue
  | .unfinished => .unfinished

/-- What came of two sources looks the same: the outcomes, the printed text, and the scopes by their names. -/
structure LooksSame (r r' : Outcome × Session) : Prop where
  shown : r.1.shown = r'.1.shown
  printer : r.2.state.printer = r'.2.state.printer
  root : r.2.root = r'.2.root
  bindsLocally : ∀ id name, r.2.state.store.bindsLocally id name = r'.2.state.store.bindsLocally id name
  describe : ∀ id, r.2.state.store.describe id = r'.2.state.store.describe id

/-- Nothing but spans tells the two texts apart. -/
structure SameMeaning (source source' : String) : Prop where
  program : (parse source).program.bare = (parse source').program.bare
  errors : List.Forall₂ (SameMistake source source') (parse source).errors (parse source').errors
  evaluation : ∀ s : Session, LooksSame (s.evalSource source) (s.evalSource source')

end Monkey
