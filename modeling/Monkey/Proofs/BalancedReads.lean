import Monkey.Balance
import Monkey.Grammar

namespace Monkey

namespace Grammar

/-- From `ts` to `rest` at most as many braces are closed as are opened and `owed`; the difference is missing. The same
is read when braces follow, and as many of them as are missing belong to it. -/
def Closes (owed : Int) (reads : List Token → List Token → Prop) (ts rest : List Token) : Prop :=
  ∃ missing : Nat, balance rest + owed + missing = balance ts ∧
    ∀ braces : List Token, (∀ b ∈ braces, b.kind = .rbrace) → reads (ts ++ braces) (rest ++ braces.drop missing)

section Closes

variable {owed owed' : Int} {reads reads' : List Token → List Token → Prop} {ts mid rest : List Token}

theorem closes_token (t : Token) (rest : List Token) :
    Closes t.kind.brace (fun ts rest => ts = t :: rest) (t :: rest) rest := by
  refine ⟨0, ?_, fun _ _ => rfl⟩
  rw [balance_cons]
  omega

theorem Closes.andThen (first : Closes owed reads ts mid) (second : Closes owed' reads' mid rest) :
    Closes (owed + owed') (fun ts rest => ∃ mid, reads ts mid ∧ reads' mid rest) ts rest := by
  obtain ⟨missing, even, concat⟩ := first
  obtain ⟨missing', even', concat'⟩ := second
  refine ⟨missing + missing', by omega, fun braces kinds => ⟨_, concat braces kinds, ?_⟩⟩
  rw [← List.drop_drop]
  exact concat' _ fun b mem => kinds b (List.mem_of_mem_drop mem)

theorem Closes.imp (h : Closes owed reads ts rest) (same : owed = owed')
    (imp : ∀ ts rest, reads ts rest → reads' ts rest) : Closes owed' reads' ts rest := by
  subst same
  obtain ⟨missing, even, concat⟩ := h
  exact ⟨missing, even, fun braces kinds => imp _ _ (concat braces kinds)⟩

/-- What takes one token is read whatever comes after it. -/
theorem closes_one {t : Token} (rest : List Token) (same : t.kind.brace = owed) (h : ∀ rest, reads (t :: rest) rest) :
    Closes owed reads (t :: rest) rest := by
  refine (closes_token t rest).imp same ?_
  rintro _ _ rfl
  exact h _

/-- What takes no token is read before a brace as before the end of the text. -/
theorem closes_none
    (h : ∀ braces : List Token, (∀ b ∈ braces, b.kind = .rbrace) → reads (rest ++ braces) (rest ++ braces)) :
    Closes 0 reads rest rest := by
  refine ⟨0, ?_, h⟩
  rw [Int.add_zero]
  exact Int.add_zero _

/-- The first token of a row, or of the braces after it. -/
theorem head?_append_braces {p : Token → Prop} {braces : List Token} (first : ∀ t ∈ rest.head?, p t)
    (kinds : ∀ b ∈ braces, b.kind = .rbrace) (brace : ∀ b : Token, b.kind = .rbrace → p b) :
    ∀ t ∈ (rest ++ braces).head?, p t := by
  intro t next
  cases rest with
  | nil => exact brace t (kinds t (List.mem_of_mem_head? next))
  | cons u us => exact first t next

/-- A statement ends before a brace as before the end of the text. -/
theorem Ends.closes (h : Ends mid rest) : Closes 0 Ends mid rest := by
  cases h with
  | semicolon kind => exact closes_one _ (by rw [kind]; rfl) fun _ => .semicolon kind
  | nothing stops =>
    refine closes_none fun braces kinds => .nothing (head?_append_braces stops kinds fun b brace => ?_)
    rw [brace]
    rintro ⟨⟨⟩⟩

end Closes

theorem Sign.brace_eq {kind : TokenKind} {op : BinaryOp} {p : Precedence} (h : Sign kind op p) : kind.brace = 0 := by
  cases h <;> rfl

/-- What reading the symbol owes to the balance: the closing bracket of a list, of which the opening one comes before
it. -/
def Symbol.brace : Symbol → Int
  | .list _ closing => closing.brace
  | _ => 0

/-- The items of rows are such that owe nothing. -/
def Symbol.Fair : Symbol → Prop
  | .items item | .list item _ => item.brace = 0 ∧ item.Fair
  | _ => True

theorem Reads.closes {symbol : Symbol} {a : symbol.Node} {ts rest : List Token} (h : Reads symbol a ts rest)
    (fair : symbol.Fair) : Closes symbol.brace (Reads symbol a) ts rest := by
  induction h with
  | tighter next _ ih => exact (ih trivial).imp rfl fun _ _ => .tighter next
  | primary _ ih => exact (ih trivial).imp rfl fun _ _ => .primary
  | call span _ kind _ ihCallee ihArguments =>
    refine (((ihCallee trivial).andThen (closes_token _ _)).andThen (ihArguments ⟨rfl, trivial⟩)).imp
      (by rw [kind]; rfl) ?_
    rintro _ _ ⟨_, ⟨_, callee, rfl⟩, arguments⟩
    exact .call span callee kind arguments
  | index span _ kind _ kind' ihBase ihIndex =>
    refine ((((ihBase trivial).andThen (closes_token _ _)).andThen (ihIndex trivial)).andThen (closes_token _ _)).imp
      (by rw [kind, kind']; rfl) ?_
    rintro _ _ ⟨_, ⟨_, ⟨_, base, rfl⟩, index⟩, rfl⟩
    exact .index span base kind index kind'
  | not span kind _ ih =>
    refine ((closes_token _ _).andThen (ih trivial)).imp (by rw [kind]; rfl) ?_
    rintro _ _ ⟨_, rfl, operand⟩
    exact .not span kind operand
  | neg span kind _ ih =>
    refine ((closes_token _ _).andThen (ih trivial)).imp (by rw [kind]; rfl) ?_
    rintro _ _ ⟨_, rfl, operand⟩
    exact .neg span kind operand
  | binary span _ sign next _ ihLeft ihRight =>
    refine (((ihLeft trivial).andThen (closes_token _ _)).andThen (ihRight trivial)).imp
      (by rw [sign.brace_eq]; rfl) ?_
    rintro _ _ ⟨_, ⟨_, left, rfl⟩, right⟩
    exact .binary span left sign next right
  | name span kind => exact closes_one _ (by rw [kind]; rfl) fun _ => .name span kind
  | int span kind value => exact closes_one _ (by rw [kind]; rfl) fun _ => .int span kind value
  | str span kind => exact closes_one _ (by rw [kind]; rfl) fun _ => .str span kind
  | trueWord span kind => exact closes_one _ (by rw [kind]; rfl) fun _ => .trueWord span kind
  | falseWord span kind => exact closes_one _ (by rw [kind]; rfl) fun _ => .falseWord span kind
  | grouped kind _ kind' ih =>
    refine (((closes_token _ _).andThen (ih trivial)).andThen (closes_token _ _)).imp (by rw [kind, kind']; rfl) ?_
    rintro _ _ ⟨_, ⟨_, rfl, inner⟩, rfl⟩
    exact .grouped kind inner kind'
  | cond span kind kind₁ _ kind₂ _ _ ihCondition ihBlock ihAlternative =>
    refine ((((((closes_token _ _).andThen (closes_token _ _)).andThen (ihCondition trivial)).andThen
      (closes_token _ _)).andThen (ihBlock trivial)).andThen (ihAlternative trivial)).imp
      (by rw [kind, kind₁, kind₂]; rfl) ?_
    rintro _ _ ⟨_, ⟨_, ⟨_, ⟨_, ⟨_, rfl, rfl⟩, condition⟩, rfl⟩, block⟩, alternative⟩
    exact .cond span kind kind₁ condition kind₂ block alternative
  | noAlternative => exact closes_none fun _ _ => .noAlternative
  | alternative kind _ ih =>
    refine ((closes_token _ _).andThen (ih trivial)).imp (by rw [kind]; rfl) ?_
    rintro _ _ ⟨_, rfl, block⟩
    exact .alternative kind block
  | function place kind kind₁ _ _ ihParameters ihBlock =>
    refine ((((closes_token _ _).andThen (closes_token _ _)).andThen (ihParameters ⟨rfl, trivial⟩)).andThen
      (ihBlock trivial)).imp (by rw [kind, kind₁]; rfl) ?_
    rintro _ _ ⟨_, ⟨_, ⟨_, rfl, rfl⟩, parameters⟩, block⟩
    exact .function place kind kind₁ parameters block
  | array span kind _ ih =>
    refine ((closes_token _ _).andThen (ih ⟨rfl, trivial⟩)).imp (by rw [kind]; rfl) ?_
    rintro _ _ ⟨_, rfl, elements⟩
    exact .array span kind elements
  | hash span kind _ ih =>
    refine ((closes_token _ _).andThen (ih ⟨rfl, trivial⟩)).imp (by rw [kind]; rfl) ?_
    rintro _ _ ⟨_, rfl, pairs⟩
    exact .hash span kind pairs
  | parameter span kind => exact closes_one _ (by rw [kind]; rfl) fun _ => .parameter span kind
  | pair _ kind _ ihKey ihValue =>
    refine (((ihKey trivial).andThen (closes_token _ _)).andThen (ihValue trivial)).imp (by rw [kind]; rfl) ?_
    rintro _ _ ⟨_, ⟨_, key, rfl⟩, value⟩
    exact .pair key kind value
  | one _ ih => exact (ih fair.2).imp fair.1 fun _ _ => .one
  | more _ kind _ ihFirst ihOthers =>
    refine (((ihFirst fair.2).andThen (closes_token _ _)).andThen (ihOthers fair)).imp (by rw [kind, fair.1]; rfl) ?_
    rintro _ _ ⟨_, ⟨_, first, rfl⟩, others⟩
    exact .more first kind others
  | emptyList kind => exact closes_one _ (by rw [kind]; rfl) fun _ => .emptyList kind
  | list _ kind ih =>
    refine ((ih fair).andThen (closes_token _ _)).imp (by rw [kind]; exact Int.zero_add _) ?_
    rintro _ _ ⟨_, items, rfl⟩
    exact .list items kind
  | bind nameSpan span kind kind₁ kind₂ _ ends ih =>
    refine (((((closes_token _ _).andThen (closes_token _ _)).andThen (closes_token _ _)).andThen (ih trivial)).andThen
      ends.closes).imp (by rw [kind, kind₁, kind₂]; rfl) ?_
    rintro _ _ ⟨_, ⟨_, ⟨_, ⟨_, rfl, rfl⟩, rfl⟩, value⟩, ends⟩
    exact .bind nameSpan span kind kind₁ kind₂ value ends
  | ret span kind _ ends ih =>
    refine (((closes_token _ _).andThen (ih trivial)).andThen ends.closes).imp (by rw [kind]; rfl) ?_
    rintro _ _ ⟨_, ⟨_, rfl, value⟩, ends⟩
    exact .ret span kind value ends
  | bareRet span kind kind' =>
    refine ((closes_token _ _).andThen (closes_token _ _)).imp (by rw [kind, kind']; rfl) ?_
    rintro _ _ ⟨_, rfl, rfl⟩
    exact .bareRet span kind kind'
  | @lastRet t rest span kind closed =>
    refine ⟨0, ?_, fun braces kinds => .lastRet span kind (head?_append_braces closed kinds fun _ brace => brace)⟩
    have none : t.kind.brace = 0 := by rw [kind]; rfl
    rw [balance_cons, none]
    change balance rest + 0 + 0 = 0 + balance rest
    omega
  | expr _ ends ih =>
    refine ((ih trivial).andThen ends.closes).imp rfl ?_
    rintro _ _ ⟨_, value, ends⟩
    exact .expr value ends
  | noStatements => exact closes_none fun _ _ => .noStatements
  | moreStatements _ _ ihFirst ihOthers =>
    refine ((ihFirst trivial).andThen (ihOthers trivial)).imp rfl ?_
    rintro _ _ ⟨_, first, others⟩
    exact .moreStatements first others
  | block span kind _ kind' ih =>
    refine (((closes_token _ _).andThen (ih trivial)).andThen (closes_token _ _)).imp (by rw [kind, kind']; rfl) ?_
    rintro _ _ ⟨_, ⟨_, rfl, body⟩, rfl⟩
    exact .block span kind body kind'
  -- The first brace that is left by the statements of a block that is cut off closes it.
  | @cutBlock _ t ts span kind _ ih =>
    obtain ⟨missing, even, concat⟩ := ih trivial
    have even : balance [] + 0 + (missing : Int) = balance ts := even
    have opened : t.kind.brace = 1 := by rw [kind]; rfl
    refine ⟨missing + 1, ?_, fun braces kinds => ?_⟩
    · rw [balance_cons, opened, ← even]
      change balance [] + 0 + ((missing + 1 : Nat) : Int) = 1 + (balance [] + 0 + (missing : Int))
      omega
    · have body := concat braces kinds
      rw [List.nil_append] at body ⊢
      rw [← List.tail_drop]
      cases left : braces.drop missing with
      | nil =>
        rw [left] at body
        exact .cutBlock span kind body
      | cons b others =>
        have mem : b ∈ braces := List.mem_of_mem_drop (left ▸ List.mem_cons_self)
        rw [left] at body
        exact .block span kind body (kinds b mem)

end Grammar

end Monkey
