import MailScreen.Cli.Arguments

/-!
# Help

Model of the help and version texts of `Cli` and `Commands`.

What the program says about itself, each topic in lines: a summary, how it is called, and tables of
its commands, arguments and options. The second columns of a table stand in one line.
-/

namespace MailScreen.Cli

/-- The name and the number of the program. -/
def versionLine : String := "mailgate 0.1.0"

/-- A table under a heading, with two columns. -/
def table (heading : String) (rows : List (String × String)) : List String :=
  let width := (rows.map (·.1.length)).foldl max 0
  "" :: (heading ++ ":") :: rows.map fun (name, about) =>
    "  " ++ name ++ String.ofList (List.replicate (width - name.length) ' ') ++ "  " ++ about

/-- The option that asks for help. -/
def helpRow : String × String :=
  ("-h, --help", "Print help")

namespace Topic

/-- What a command does. -/
def about : Topic → String
  | program => "MailGate decision engine entry point"
  | serve => "Read check requests from stdin and write results to stdout (default)"
  | checkConfig => "Validate the configuration and exit"
  | dkimRecord => "Print the DKIM TXT record for the configured signing key"
  | sign => "Sign a raw message with the configured key and print the DKIM-Signature header"
  | help => "Print this message or the help of the given subcommand(s)"

/-- How a command is called. -/
def usage : Topic → String
  | program => "mailgate [OPTIONS] [COMMAND]"
  | serve => "mailgate serve [OPTIONS]"
  | checkConfig => "mailgate check-config"
  | dkimRecord => "mailgate dkim-record"
  | sign => "mailgate sign <PATH>"
  | help => "mailgate help [COMMAND]..."

/-- The table of the commands. -/
def commands : List String :=
  table "Commands" [("serve", about serve), ("check-config", about checkConfig),
    ("dkim-record", about dkimRecord), ("sign", about sign), ("help", about help)]

/-- The tables of a topic; that of the program tells which file the environment names. -/
def tables (environment : Option String) : Topic → List String
  | program =>
    commands ++ table "Options" [
      ("-c, --config <CONFIG>",
        "Configuration file, defaults to ./mailgate.toml or /etc/mailgate/mailgate.toml " ++
          "[env: MAILGATE_CONFIG=" ++ environment.getD "" ++ "]"),
      helpRow, ("-V, --version", "Print version")]
  | serve =>
    table "Options" [
      ("    --metrics-on-exit", "Print the metrics exposition to stderr on shutdown"), helpRow]
  | checkConfig | dkimRecord => table "Options" [helpRow]
  | sign =>
    table "Arguments" [("<PATH>", "Message file, or '-' for stdin")] ++
      table "Options" [helpRow]
  | help => table "Arguments" [("[COMMAND]...", "Print help for the subcommand(s)")]

/-- All lines about a topic. -/
def lines (environment : Option String) (t : Topic) : List String :=
  [t.about, "", "Usage: " ++ t.usage] ++ t.tables environment

end Topic

end MailScreen.Cli
