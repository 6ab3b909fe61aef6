import Monkey.Layout
import Monkey.Proofs.ParallelParsing

namespace Monkey

open Lexer (ofString)

/-- Two texts with the same wording, with no spans in view. -/
def TextPair.ofWording {source source' : String} (same : Monkey.wording source = Monkey.wording source') :
    TextPair where
  view := .bare
  view' := .bare
  lexer := ofString source
  lexer' := ofString source'
  live _ := True
  wording n _ := (atSameIndex_skip same n).wording_eq same
  span _ _ := rfl
  next _ _ _ := trivial
  merge _ _ := rfl
  number := congrArg (· + 1)

section SameWording

variable {source source' : String} (same : wording source = wording source')

theorem SameFinding.sameMistake {t t' : Token} {e e' : ParseError} (finding : SameFinding t t' e e')
    (at_ : AtSameIndex source source' t t') (words : t.wording = t'.wording) : SameMistake source source' e e' := by
  have kinds : t.kind = t'.kind := congrArg Prod.fst words
  have literals : t.literal = t'.literal := congrArg Prod.snd words
  cases finding with
  | unexpected expected => exact ⟨by rw [kinds]; rfl, t, t', at_, rfl, rfl⟩
  | noExpression => exact ⟨by rw [kinds]; rfl, t, t', at_, rfl, rfl⟩
  | tooLarge => exact ⟨by rw [literals]; rfl, t, t', at_, rfl, rfl⟩

include same in
/-- Texts with the same wording are read as programs that are the same but for spans, with the same mistakes. -/
theorem parse_alike :
    (parse source).program.bare = (parse source').program.bare ∧
      List.Forall₂ (SameMistake source source') (parse source).errors (parse source').errors := by
  obtain ⟨ss, t, returns, left⟩ := Parser.exists_returns_program source
  obtain ⟨ss', t', returns', right⟩ := Parser.exists_returns_program source'
  obtain ⟨trace, run⟩ := returns.exists_traces
  have start : Parser.StatesAlike (.ofWording same) (.start source) (.start source') := ⟨⟨0, rfl, rfl⟩, .nil, rfl⟩
  obtain ⟨r, u, returns'', ends⟩ := Parser.exists_returns_alike _ start (.statements false) trivial trivial run
    fun _ _ => ⟨trivial, trivial⟩
  obtain ⟨rfl, rfl⟩ := returns'.unique returns''
  obtain ⟨states, statements, _⟩ := ends
  rw [left, right]
  constructor
  · have statements : ss.map Statement.bare = ss'.map Statement.bare := statements
    rw [Program.bare, Program.bare, Program.mapSpans, Program.mapSpans, mapStatements_eq_map, mapStatements_eq_map]
    exact congrArg Program.mk statements
  · refine states.errors.imp fun e e' => ?_
    rintro ⟨t, t', tokens, finding⟩
    have words := tokens.wording_eq
    obtain ⟨n, _, rfl, rfl⟩ := tokens
    exact finding.sameMistake (atSameIndex_skip same n) words

end SameWording

end Monkey
