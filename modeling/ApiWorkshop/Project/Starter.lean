import ApiWorkshop.Text.Lines

/-!
# The starter definition

A new project begins with one definition file that shows what can be declared.
-/

namespace ApiWorkshop

namespace Starter

def fileName : String := "user.toml"

def remainingLines : List String :=
  ["#",
   "# Every *.toml file in this directory is one group of endpoints. After",
   "# editing, run `specforge generate` to refresh docs/openapi.json and the",
   "# generated regions of the project sources.",
   "",
   "name = \"Users\"",
   "description = \"User accounts\"",
   "",
   "[[endpoints]]",
   "path = \"/user/new\"",
   "method = \"POST\"",
   "summary = \"Creates a new user\"",
   "",
   "[endpoints.body]",
   "schema = \"newUser\"",
   "",
   "[[endpoints]]",
   "path = \"/user/\x7buser_id\x7d/delete\"",
   "method = \"POST\"",
   "summary = \"Deletes a user by ID\"",
   "",
   "[[endpoints]]",
   "path = \"/user/\x7buser_id\x7d/update\"",
   "method = \"POST\"",
   "summary = \"Updates a user by ID\"",
   "",
   "[endpoints.body]",
   "schema = \"userInfo\"",
   "",
   "[[endpoints]]",
   "path = \"/user/\x7buser_id\x7d/view\"",
   "method = \"GET\"",
   "summary = \"Gets a user by ID\"",
   "",
   "[[endpoints]]",
   "path = \"/user/list\"",
   "method = \"GET\"",
   "summary = \"Finds a list of users\"",
   "",
   "[endpoints.query]",
   "roles = \x7b type = \"string\", description = \"User roles\" \x7d",
   "tags = \x7b type = \"string\", description = \"User tags\" \x7d",
   "",
   "[[endpoints]]",
   "path = \"/user/import\"",
   "method = \"POST\"",
   "summary = \"Imports the user data\"",
   "",
   "[endpoints.body]",
   "schema = \"userData\"",
   "",
   "[[endpoints]]",
   "path = \"/user/export\"",
   "method = \"GET\"",
   "summary = \"Exports the user data\"",
   "",
   "[endpoints.query]",
   "format = \x7b type = \"string\", enum = [\"csv\", \"json\", \"jsonlines\"], default = \"json\", description = \"File format\" \x7d",
   "roles = \x7b type = \"string\", description = \"User roles\" \x7d",
   "tags = \x7b type = \"string\", description = \"User tags\" \x7d",
   "",
   "[schemas.userId]",
   "type = \"string\"",
   "format = \"uuid\"",
   "description = \"User ID\"",
   "",
   "[schemas.newUser]",
   "type = \"object\"",
   "required = [\"name\", \"roles\", \"account\", \"password\"]",
   "name = \x7b type = \"string\", description = \"User name\" \x7d",
   "roles = \x7b type = \"array\", items = \"string\", example = [\"admin\"], description = \"User roles\" \x7d",
   "account = \x7b type = \"string\", description = \"User account\" \x7d",
   "password = \x7b type = \"string\", format = \"password\", description = \"User password\" \x7d",
   "tags = \x7b type = \"array\", items = \x7b type = \"string\", format = \"uuid\" \x7d, description = \"User tags\" \x7d",
   "",
   "[schemas.userInfo]",
   "type = \"object\"",
   "name = \x7b type = \"string\", description = \"User name\" \x7d",
   "status = \x7b type = \"string\", enum = [\"Active\", \"Inactive\", \"Locked\", \"Deleted\"], description = \"User status\" \x7d",
   "roles = \x7b type = \"array\", items = \"string\", description = \"User roles\" \x7d",
   "tags = \x7b type = \"array\", items = \x7b type = \"string\", format = \"uuid\" \x7d, description = \"User tags\" \x7d",
   "",
   "[schemas.userData]",
   "type = \"array\"",
   "items = \"object\"",
   "required = [\"name\", \"roles\", \"account\", \"password\"]",
   "name = \x7b type = \"string\", description = \"User name\" \x7d",
   "roles = \x7b type = \"array\", items = \"string\", example = [\"admin\"], description = \"User roles\" \x7d",
   "account = \x7b type = \"string\", description = \"User account\" \x7d",
   "password = \x7b type = \"string\", format = \"password\", description = \"User password\" \x7d",
   "tags = \x7b type = \"array\", items = \x7b type = \"string\", format = \"uuid\" \x7d, description = \"User tags\" \x7d",
   "",
   "[models.user.visibility]",
   "translations = [",
   "    [\"Public\", \"🌐\"],",
   "    [\"Internal\", \"🔵\"],",
   "    [\"Protected\", \"⛔\"],",
   "    [\"Private\", \"🔴\"],",
   "]",
   "",
   "[models.user.status]",
   "translations = [",
   "    [\"Active\", \"😄\"],",
   "    [\"Inactive\", \"😴\"],",
   "]",
   "",
   "[models.user.roles]",
   "translations = [",
   "    [\"admin\", \"👮\"],",
   "    [\"worker\", \"👷\"],",
   "]",
   "",
   "[models.user.updated_at]",
   "translations = [",
   "    [\"$span:24h\", \"Updated within 1 day\"],",
   "    [\"$span:7d\", \"Updated within 1 week\"],",
   "]"]

def text (projectName : String) : Text :=
  "# API definition for " ++ projectName.toList ++ ".\n" ++ Text.ofLines remainingLines

end Starter

end ApiWorkshop
