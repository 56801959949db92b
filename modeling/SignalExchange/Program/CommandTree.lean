import SignalExchange.Edit.Surface

/-! The commands of the program. -/

set_option autoImplicit false

namespace SignalExchange

namespace CommandTree

def dataDirectory : Argument :=
  { id := "data_dir", long := some "data-dir", action := .set, kind := .path, global := true,
    valueNames := some ["PATH"],
    help := "Directory holding the sigex database (default: $SIGEX_HOME or ~/.sigex)" }

def verbose : Argument :=
  { Argument.switch "verbose" (some "verbose") (some 'v') "Log debug output to stderr" with
    global := true }

def positional (id help : String) (required : Bool) : Argument :=
  { id := id, action := .set, required := required, help := help }

def edit (surfaces : List Surface) : Command :=
  { name := "edit", about := "Create or edit a collaboration (one subcommand per api)"
    subcommands := surfaces.map (·.command), subcommandRequired := true, helpWhenBare := true }

def collab (surfaces : List Surface) : Command :=
  { name := "collab"
    about := "Create, edit, list and delete collaborations (lists by default)"
    subcommands :=
      [{ name := "list", about := "List all collaborations" },
       edit surfaces,
       { name := "delete", about := "Delete a collaboration"
         arguments := [positional "collab_name" "The collab to delete" true] }] }

/-- A listing, with the only thing that can be done to it. -/
def listing (name about : String) : Command :=
  { name := name, about := about
    arguments := [{ id := "action", action := .set, kind := .choice ["list"] }] }

def listGroupsId : String := "list_available_collabs"

def importGroupId : String := "import_collab"

def tokenId : String := "api_token"

def threatExchange : Command :=
  { name := "fb_threatexchange", about := "Configure Facebook ThreatExchange integration"
    arguments :=
      [Argument.switch listGroupsId (some "list-available-collabs") (some 'L')
         "Query the API to list available collabs",
       { id := importGroupId, long := some "import-collab", short := some 'I', action := .set,
         kind := .integer, valueNames := some ["ID"],
         help := "Import a collaboration by privacy group ID" },
       { id := tokenId, long := some "api-token", action := .set, valueNames := some ["TOKEN"],
         help := "Set the default api token" }]
    groups := [⟨"ThreatExchangeArgs", [listGroupsId, importGroupId, tokenId]⟩] }

def credentialsId : String := "credentials"

def ncmec : Command :=
  { name := "ncmec", about := "Configure NCMEC hash api integration"
    arguments :=
      [{ id := credentialsId, long := some "credentials", action := .append, least := 2,
         greatest := 2, valueNames := some ["USER", "PASSWORD"],
         help := "Set the username and password to access the NCMEC API" }] }

def api : Command :=
  { name := "api", about := "Configure and view available signal exchange APIs"
    subcommands := [threatExchange, ncmec] }

def moduleId : String := "module"

def extensions : Command :=
  { name := "extensions", about := "Manage extension modules"
    subcommandRequired := true, helpWhenBare := true
    subcommands :=
      [{ name := "list", about := "List added extensions, or show what one module contributes"
         arguments := [positional moduleId "Module to show" false] },
       { name := "add", about := "Validate and add an extension module"
         arguments :=
           [positional moduleId "Module reference, e.g. sigex.extensions.tlsh" true] },
       { name := "remove", about := "Remove an extension module"
         arguments := [positional moduleId "Module reference" true] }] }

def config (surfaces : List Surface) : Command :=
  { name := "config", about := "Configure the CLI"
    subcommandRequired := true, helpWhenBare := true
    subcommands :=
      [collab surfaces,
       listing "signal" "View available signal types",
       listing "content" "View available content types",
       api,
       extensions] }

def root (surfaces : List Surface) : Command :=
  { name := "sigex", about := "sigex - signal exchange configuration"
    arguments := [dataDirectory, verbose, Argument.versionSwitch]
    subcommandRequired := true, helpWhenBare := true
    subcommands := [config surfaces] }

def globalNames : List String :=
  [dataDirectory, verbose].flatMap fun argument => argument.id :: argument.long.toList

/-- The whole program, with an edit command for each surface. No flag of a surface may be one of
the whole program. -/
def withSurfaces (surfaces : List Surface) : Except ConfigError Command := do
  surfaces.forM fun surface =>
    (surface.avoids globalNames).mapError (.ofSchemaFault surface.api)
  return root surfaces

end CommandTree

end SignalExchange
