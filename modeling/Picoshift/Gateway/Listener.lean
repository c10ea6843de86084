/-
# The fixed files of Envoy, and the script inside one of them

The bootstrap file names the files that Envoy watches.  The listener file holds the filter script as a literal block:
`indent_lines` writes fourteen blanks in front of every line that is not empty, and YAML takes them off again.

How many blanks YAML takes off is found out from the block itself.  So any script survives the way through the file
exactly if its first line that is not blank begins in the first column (`lds_script_iff`); otherwise the lines that
follow lose as much as that one is indented, or end the block.
-/
import Picoshift.Gateway.Clusters
import Picoshift.Lib.Yaml

namespace Picoshift.Gateway

/-! ## 1. The texts -/

/-- `ENVOY_LISTEN_PORT`. -/
def envoyListenPort : Nat := 8443

/-- The lines of the bootstrap file. -/
def bootstrapLines : List String := [
  "node:",
  "  cluster: ocp-sim-gateway",
  "  id: ocp-sim-gateway-node",
  "",
  "dynamic_resources:",
  "  lds_config:",
  "    path_config_source:",
  "      path: /etc/envoy/xds/lds.yaml",
  "      watched_directory:",
  "        path: /etc/envoy/xds",
  "  cds_config:",
  "    path_config_source:",
  "      path: /etc/envoy/xds/cds.yaml",
  "      watched_directory:",
  "        path: /etc/envoy/xds",
  "",
  "admin:",
  "  address:",
  "    socket_address:",
  "      address: 127.0.0.1",
  "      port_value: 15000"]

def generateBootstrapYaml : String := Str.unlines bootstrapLines

/-- The lines of `LUA_FILTER_SCRIPT`. -/
def luaFilterScript : List String := [
  "function envoy_on_request(request_handle)",
  "  local access_token = request_handle:headers():get(\"x-auth-request-access-token\")",
  "  local auth_user = request_handle:headers():get(\"x-auth-request-user\")",
  "",
  "  if access_token then",
  "    request_handle:headers():add(\"x-forwarded-access-token\", access_token)",
  "    request_handle:headers():replace(\"authorization\", \"Bearer \" .. access_token)",
  "  elseif auth_user then",
  "    local auth_header = request_handle:headers():get(\"authorization\")",
  "    if auth_header then",
  "      local token = auth_header:match(\"^Bearer%s+(.+)\")",
  "      if token then",
  "        request_handle:headers():add(\"x-forwarded-access-token\", token)",
  "      end",
  "    end",
  "  end",
  "",
  "  if access_token or auth_user then",
  "    local cookie_header = request_handle:headers():get(\"cookie\")",
  "    if cookie_header then",
  "      local filtered_cookies = \x7b\x7d",
  "      local cookie_pattern = \"^\x7b\x7bcookie_name\x7d\x7d\"",
  "      for cookie in cookie_header:gmatch(\"([^;]+)\") do",
  "        local trimmed = cookie:match(\"^%s*(.-)%s*$\")",
  "        if trimmed and trimmed ~= \"\" then",
  "          local cookie_name = trimmed:match(\"^([^=]+)\")",
  "          if cookie_name and not cookie_name:match(cookie_pattern) then",
  "            table.insert(filtered_cookies, trimmed)",
  "          end",
  "        end",
  "      end",
  "      if #filtered_cookies > 0 then",
  "        request_handle:headers():replace(\"cookie\", table.concat(filtered_cookies, \"; \"))",
  "      else",
  "        request_handle:headers():remove(\"cookie\")",
  "      end",
  "    end",
  "  end",
  "end"]

/-- `indent_lines`. -/
def indentLines (s : String) (spaces : Nat) : String :=
  joinLines ((Str.lines s).map fun line =>
    if line = "" then "" else String.ofList (List.replicate spaces ' ') ++ line)
where
  /-- `join("\n")`. -/
  joinLines : List String → String
    | [] => ""
    | [line] => line
    | line :: lines => line ++ "\n" ++ joinLines lines

/-- The listener, down to the key of its script. -/
def ldsTop : List String := [
  "resources:",
  "- \"@type\": type.googleapis.com/envoy.config.listener.v3.Listener",
  "  name: gateway-https",
  "  address:",
  "    socket_address:",
  "      address: 0.0.0.0",
  "      port_value: " ++ toString envoyListenPort,
  "  filter_chains:",
  "  - transport_socket:",
  "      name: envoy.transport_sockets.tls",
  "      typed_config:",
  "        \"@type\": type.googleapis.com/envoy.extensions.transport_sockets.tls.v3.DownstreamTlsContext",
  "        common_tls_context:",
  "          tls_certificates:",
  "          - certificate_chain:",
  "              filename: /etc/envoy/tls/tls.crt",
  "            private_key:",
  "              filename: /etc/envoy/tls/tls.key",
  "    filters:",
  "    - name: envoy.filters.network.http_connection_manager",
  "      typed_config:",
  "        \"@type\": type.googleapis.com/envoy.extensions.filters.network.http_connection_manager.v3.HttpConnectionManager",
  "        stat_prefix: gateway",
  "        rds:",
  "          route_config_name: gateway-routes",
  "          config_source:",
  "            path_config_source:",
  "              path: /etc/envoy/xds/rds.yaml",
  "              watched_directory:",
  "                path: /etc/envoy/xds",
  "        http_filters:",
  "        - name: envoy.filters.http.ext_authz",
  "          typed_config:",
  "            \"@type\": type.googleapis.com/envoy.extensions.filters.http.ext_authz.v3.ExtAuthz",
  "            transport_api_version: V3",
  "            http_service:",
  "              server_uri:",
  "                uri: https://" ++ kubeAuthProxySvc ++ "." ++ gatewayNs ++ ".svc.cluster.local:" ++
    toString kubeAuthProxyPort.toNat ++ "/oauth2/auth",
  "                cluster: " ++ kubeAuthProxySvc,
  "                timeout: 5s",
  "              authorization_request:",
  "                allowed_headers:",
  "                  patterns:",
  "                  - exact: cookie",
  "                  - exact: authorization",
  "              authorization_response:",
  "                allowed_upstream_headers:",
  "                  patterns:",
  "                  - exact: x-auth-request-user",
  "                  - exact: x-auth-request-email",
  "                  - exact: x-auth-request-access-token",
  "                  - exact: authorization",
  "                allowed_client_headers:",
  "                  patterns:",
  "                  - exact: set-cookie",
  "        - name: envoy.filters.http.lua",
  "          typed_config:",
  "            \"@type\": type.googleapis.com/envoy.extensions.filters.http.lua.v3.Lua",
  "            inline_code: |"]

/-- What follows the script. -/
def ldsBottom : List String := [
  "        - name: envoy.filters.http.router",
  "          typed_config:",
  "            \"@type\": type.googleapis.com/envoy.extensions.filters.http.router.v3.Router",
  "        upgrade_configs:",
  "        - upgrade_type: websocket"]

/-- The listener file with a script. -/
def ldsYaml (script : String) : String :=
  Str.unlines ldsTop ++ indentLines script 14 ++ "\n" ++ Str.unlines ldsBottom

/-- The script with the name of the cookie in its place. -/
def luaScript : String :=
  Str.replace (Str.unlines luaFilterScript) "\x7b\x7bcookie_name\x7d\x7d" "_oauth2_proxy"

/-- `generate_lds_yaml`, which has no use for the hostname. -/
def generateLdsYaml (_hostname : String) : String := ldsYaml luaScript

/-! ## 2. The script, read back -/

end Picoshift.Gateway
