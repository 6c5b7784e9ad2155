namespace WeakKleene
namespace Shell

/-!
What the commands of the theory shell do, in the words of its help.
-/

/-- The help on a command.  The lines after the first are indented. -/
def helpOn? : String -> Option (List String)
  | "assert" => some [
      "assert [sign:] <statement> - Add a statement with optional sign.",
      "",
      "        Signs: t (true), f (false), e (error/undefined), m (meaningful), " ++
        "n (nontrue), v (variable)",
      "        Default sign is 't' if not specified.",
      "",
      "        Examples:",
      "            assert Socrates is a human              # Defaults to t:",
      "            assert t: All humans are mortal         # Explicitly true",
      "            assert f: Pluto is a planet            # Assert as false",
      "            assert e: Undefined predicate          # Assert as undefined",
      "        "]
  | "retract" => some [
      "retract <id> [id2 id3...] | --inferred - Remove statement(s) by ID or all inferred.",
      "",
      "        Examples:",
      "            retract S0001              # Retract single statement",
      "            retract S0001 S0002 I0003  # Retract multiple statements",
      "            retract --inferred         # Retract all inferred statements",
      "        "]
  | "list" => some ["list [asserted] - List all statements or only asserted ones."]
  | "check" => some ["check - Check if the current theory is satisfiable."]
  | "infer" => some ["infer - Infer logical consequences from the current theory."]
  | "report" => some ["report - Generate a comprehensive analysis report."]
  | "clear" => some ["clear - Clear all statements from the theory."]
  | "save" => some [
      "save [filename] - Save the theory to a file.",
      "",
      "        Without filename: saves to current working file (theory.json by default)",
      "        With filename: saves to specified file",
      "",
      "        Note: After loading a file, auto-save is disabled to prevent overwriting",
      "        the original. Use 'save' explicitly to save changes.",
      "        "]
  | "load" => some [
      "load [filename] [--merge] - Load a theory from a file.",
      "",
      "        By default, replaces the current theory. Use --merge to combine.",
      "",
      "        Examples:",
      "            load                     # Load from default theory.json",
      "            load my_theory.json      # Load from specific file",
      "            load axioms.json --merge # Add to current theory",
      "        "]
  | "claim" => some [
      "claim <statement> - Assert a factual claim, verifying with LLM if available.",
      "",
      "        For atomic formulas with LLM available: queries LLM first, then asserts the result.",
      "        For compound formulas or no LLM: behaves like regular assert.",
      "",
      "        Examples:",
      "            claim firstManOnTheMoon(armstrong)  # LLM verifies, then asserts result",
      "            claim Paris is the capital of France  # Translates and verifies if atomic",
      "            claim P(x) & Q(y)  # Compound formula, asserted as true",
      "        "]
  | "evaluate" => some [
      "evaluate <formula> [--assert] - Get LLM evaluation for an atomic formula.",
      "",
      "        Examples:",
      "            evaluate Planet(pluto)            # Check if Pluto is a planet",
      "            evaluate Mortal(socrates)          # Check if Socrates is mortal",
      "            evaluate Red(mars) --assert        # Evaluate and add to theory",
      "",
      "        Options:",
      "            --assert    Add the evaluation result to the theory",
      "",
      "        Returns the LLM's assessment as:",
      "            - TRUE/FALSE for definite knowledge",
      "            - UNDEFINED if the LLM has no knowledge",
      "            - Shows both positive and negative evidence",
      "        "]
  | "llm" => some [
      "llm <provider> [model] [api_key] - Enable LLM evaluator.",
      "",
      "        Providers: openai, anthropic, openrouter, mock",
      "",
      "        Examples:",
      "            llm openai                          # Use default model (gpt-4)",
      "            llm openai gpt-4o                   # Use specific model",
      "            llm anthropic claude-3-opus         # Use specific Anthropic model",
      "            llm openrouter meta-llama/llama-3.1 # Use model via OpenRouter",
      "            llm openai gpt-4o sk-abc123...      # Model + API key",
      "            llm status                          # Show current LLM status",
      "            llm list                            # List available providers",
      "        "]
  | "help" => some [
      "help [command] - Show available commands or help for a specific command.",
      "",
      "        Examples:",
      "            help           - Show all commands",
      "            help assert    - Show help for assert command",
      "            help llm       - Show help for llm command",
      "        "]
  | "quit" => some ["quit - Exit the theory manager."]
  | "exit" => some ["Alias for quit."]
  | _ => none

def helpLines : List String := [
  "",
  "ACrQ Theory Manager Commands",
  "========================================",
  "",
  "Basic Commands:",
  "  assert <statement>  - Add a natural language statement",
  "  retract <id>        - Remove a statement by ID",
  "  list                - Show all statements",
  "  check               - Check satisfiability",
  "  infer               - Infer new statements",
  "  evaluate <formula>  - Get LLM evaluation for atomic formula",
  "  report              - Generate full analysis report",
  "  clear               - Clear all statements",
  "  save [file]         - Save theory to file",
  "  load [file]         - Load theory from file",
  "",
  "LLM Integration:",
  "  llm list            - Show available LLM providers",
  "  llm status          - Show current LLM configuration",
  "  llm <provider>      - Enable LLM (openai, anthropic, openrouter, mock)",
  "  llm <provider> <key> - Enable LLM with API key",
  "",
  "Other:",
  "  help [command]      - Show help for a specific command",
  "  quit                - Exit",
  "",
  "Note: Commands can optionally be prefixed with '/'",
  ""]

end Shell
end WeakKleene
