
namespace LeakScan.Config

def templateLines : List String :=
  ["# KeyHunter Scanner Configuration",
    "",
    "# Directory names never descended into",
    "skip_dirs:",
    "  - \"node_modules\"",
    "  - \".git\"",
    "  - \"dist\"",
    "  - \"coverage\"",
    "  - \".vite-cache\"",
    "  # - \"build\"",
    "",
    "# File extensions excluded from content and filename checks",
    "skip_extensions:",
    "  - \".jpg\"",
    "  - \".png\"",
    "  - \".gif\"",
    "  - \".pdf\"",
    "  - \".zip\"",
    "  - \".svg\"",
    "  - \".ico\"",
    "  - \".woff\"",
    "  - \".woff2\"",
    "  - \".ttf\"",
    "  - \".eot\"",
    "",
    "# Cohere, AI21 and Azure OpenAI patterns match any 32/40 character",
    "# alphanumeric or hex string. Set to false to drop them.",
    "broad_patterns: true",
    "",
    "# Seconds to wait for a remote page when scanning a URL",
    "request_timeout: 30"]

def template : String := String.join (templateLines.map (· ++ "\n"))

end LeakScan.Config
