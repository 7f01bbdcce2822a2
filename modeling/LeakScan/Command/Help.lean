
namespace LeakScan.Command

def joinLines (lines : List String) : String := String.join (lines.map (· ++ "\n"))

def mainHelp : List String :=
  ["usage: keyhunter [-h] [-v] \x7bversion,scan,scan-url,init\x7d ...",
    "",
    "KeyHunter API key and secret scanner",
    "",
    "positional arguments:",
    "  \x7bversion,scan,scan-url,init\x7d",
    "    version             print version",
    "    scan                scan a directory",
    "    scan-url            fetch and scan a single web page",
    "    init                write a default .keyhunter.yml",
    "",
    "options:",
    "  -h, --help            show this help message and exit",
    "  -v, --version         print version and exit"]

def scanOptionsHelp : List String :=
  ["options:",
    "  -h, --help            show this help message and exit",
    "  --format \x7btext,json,sarif\x7d",
    "                        output format (default: text)",
    "  --config CONFIG       path to scanner config YAML file",
    "  --strict              drop the broad Cohere/AI21/Azure OpenAI patterns",
    "  --json-out JSON_OUT   write JSON results to file",
    "  --sarif-out SARIF_OUT",
    "                        write SARIF results to file",
    "  --fail-on \x7bhigh,medium,never\x7d",
    "                        exit 1 when the risk level reaches this tier (default:",
    "                        never)",
    "  --verbose             enable debug logging"]

def scanHelp : List String :=
  ["usage: keyhunter scan [-h] [--format \x7btext,json,sarif\x7d] [--config CONFIG]",
    "                      [--strict] [--json-out JSON_OUT] [--sarif-out SARIF_OUT]",
    "                      [--fail-on \x7bhigh,medium,never\x7d] [--verbose]",
    "                      [root]",
    "",
    "positional arguments:",
    "  root                  directory to scan",
    ""] ++ scanOptionsHelp

def scanPageHelp : List String :=
  ["usage: keyhunter scan-url [-h] [--format \x7btext,json,sarif\x7d] [--config CONFIG]",
    "                          [--strict] [--json-out JSON_OUT]",
    "                          [--sarif-out SARIF_OUT]",
    "                          [--fail-on \x7bhigh,medium,never\x7d] [--verbose]",
    "                          url",
    "",
    "positional arguments:",
    "  url                   http:// or https:// URL to scan",
    ""] ++ scanOptionsHelp

def initHelp : List String :=
  ["usage: keyhunter init [-h] [--force] [root]",
    "",
    "positional arguments:",
    "  root        directory to write the config into",
    "",
    "options:",
    "  -h, --help  show this help message and exit",
    "  --force     overwrite an existing config file"]

def versionHelp : List String :=
  ["usage: keyhunter version [-h]",
    "",
    "options:",
    "  -h, --help  show this help message and exit"]

end LeakScan.Command
