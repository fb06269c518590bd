import BananaChat.Foundation.Dictionary
import BananaChat.Providers.Replay

namespace BananaChat.Providers

open Foundation

/-!
# The body of a request to Claude
-/

variable {Json Converted Tool Value : Type}

def thinkingBudgets : List (String × ℤ) := [("low", 2048), ("medium", 6144), ("high", 12288), ("extra", 20480), ("max", 32000)]

def anthropicEffort : List (String × String) := [("low", "low"), ("medium", "medium"), ("high", "high"), ("extra", "xhigh"), ("max", "max")]

/-- `model_settings`. -/
structure ModelSettings where
  sampling : Bool
  thinking : ThinkingMode
  maxOutput : Option ℤ
  positive : ∀ maximum ∈ maxOutput, 0 < maximum

structure RequestOptions (Value : Type) where
  /-- None for any value that is not an integer. -/
  numPredict : Option ℤ
  stop : List Text
  temperature : Option Value
  topP : Option Value

inductive Thinking
  | enabled (budgetTokens : ℤ)
  | adaptive

structure AnthropicBody (Converted Tool Value : Type) where
  model : Text
  messages : Converted
  maxTokens : ℤ
  system : Text
  tools : List Tool
  stopSequences : List Text
  outputEffort : Option String
  thinking : Option Thinking
  sampling : Option (String × Value)

/-- `min`, where the settings have a maximum. -/
def ModelSettings.capped (settings : ModelSettings) (tokens : ℤ) : ℤ := settings.maxOutput.elim tokens (min tokens)

def outputLimit (options : RequestOptions Value) (settings : ModelSettings) : Option ℤ :=
  (options.numPredict.filter (1 <= ·)).map settings.capped

/-- `budget_tokens` and `max_tokens`. -/
def thinkingBudget (options : RequestOptions Value) (effort : String) (settings : ModelSettings) : ℤ × ℤ :=
  let budget := (Dictionary.get? effort thinkingBudgets).getD 6144
  let ceiling := settings.capped ((outputLimit options settings).getD 4096 + budget)
  (min budget (ceiling - 1), ceiling)

def toolContinuation (messages : List (Message Json)) : Bool :=
  match messages.reverse.dropWhile (·.role = some .tool) with
  | [] => false
  | message :: _ => message.role = some .assistant && !message.toolCalls.isEmpty

def askedThinking (budgetTokens : ℤ) : ThinkingMode -> Option Thinking
  | .budget => if 1024 <= budgetTokens then some (.enabled budgetTokens) else none
  | .adaptive => some .adaptive

def anthropicBody (name : Text) (converted : Converted) (system : Text) (messages : List (Message Json)) (options : RequestOptions Value)
    (effort : Option String) (tools : List Tool) (settings : ModelSettings) (resume : Bool) : AnthropicBody Converted Tool Value :=
  let level := effort.filter fun level => level ≠ "" && level ≠ "off"
  let continuation := toolContinuation messages && !resume
  let budget := thinkingBudget options (level.getD "") settings
  let thinking := if level.isSome && !continuation then askedThinking budget.1 settings.thinking else none
  { model := name
    messages := converted
    maxTokens := match thinking with
      | some (.enabled _) => budget.2
      | _ => (outputLimit options settings).getD 4096
    system
    tools
    stopSequences := options.stop
    outputEffort := if settings.thinking = .adaptive then level.map fun level => (Dictionary.get? level anthropicEffort).getD "medium" else none
    thinking
    sampling := if settings.sampling && thinking.isNone then
      (options.temperature.map ("temperature", ·)).or (options.topP.map ("top_p", ·)) else none }

theorem capped_le (settings : ModelSettings) (tokens : ℤ) : ∀ maximum ∈ settings.maxOutput, settings.capped tokens <= maximum := by
  intro _ isMaximum
  rw [ModelSettings.capped, isMaximum]
  exact min_le_right _ _

theorem thinkingBudget_lt (options : RequestOptions Value) (effort : String) (settings : ModelSettings) :
  (thinkingBudget options effort settings).1 < (thinkingBudget options effort settings).2 :=
  (min_le_right _ _).trans_lt (sub_one_lt _)

theorem enabled_of_asked {tokens budget : ℤ} {mode : ThinkingMode} (asks : askedThinking tokens mode = some (.enabled budget)) :
  1024 <= tokens /\ budget = tokens := by
  unfold askedThinking at asks
  split at asks
  · split at asks
    · rename_i enough
      cases asks
      exact ⟨enough, rfl⟩
    · cases asks
  · cases asks

end BananaChat.Providers
