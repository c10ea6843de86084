import Picoshift.Lib.Map
import Picoshift.Lib.Machine
import Picoshift.Lib.Prog
import Picoshift.Lib.Transducer
import Picoshift.Lib.Str
import Picoshift.Lib.Utf8
import Picoshift.Lib.Base64
import Picoshift.Lib.SipHash
import Picoshift.Lib.StableSort
import Picoshift.Lib.Chunks
import Picoshift.Lib.Writers
import Picoshift.Lib.Form
import Picoshift.Lib.Html
import Picoshift.Lib.Json
import Picoshift.Lib.JsonText
import Picoshift.Lib.JsonPatch
import Picoshift.Lib.MergePatch
import Picoshift.Lib.Url
import Picoshift.Lib.UrlParts
import Picoshift.Lib.HeaderMap
import Picoshift.Lib.HttpHead
import Picoshift.Lib.IpAddr
import Picoshift.Lib.Feed
import Picoshift.Lib.Watch
import Picoshift.Lib.Lines
import Picoshift.Lib.Yaml
import Picoshift.Lib.YamlScalar
import Picoshift.Lib.YamlBlock
import Picoshift.Lib.Shell
import Picoshift.Lib.LuaPattern
import Picoshift.OAuth.Types
import Picoshift.OAuth.Helpers
import Picoshift.OAuth.Handlers
import Picoshift.OAuth.Server
import Picoshift.OAuth.Userinfo
import Picoshift.OAuth.Sweep
import Picoshift.OAuth.Exchange
import Picoshift.OAuth.RoundTrip
import Picoshift.OAuth.Router
import Picoshift.OAuth.Redeem
import Picoshift.OAuth.Login
import Picoshift.OAuth.Redirect
import Picoshift.OAuth.ClientAuth
import Picoshift.OAuth.Htpasswd
import Picoshift.OAuth.Watcher
import Picoshift.OAuth.CoreDns
import Picoshift.Proxy.Tunnel
import Picoshift.Proxy.Types
import Picoshift.Proxy.Resolve
import Picoshift.Proxy.RouteTable
import Picoshift.Proxy.Forward
import Picoshift.ServiceCa.Reconcile
import Picoshift.ServiceCa.Trust
import Picoshift.ServiceCa.Services
import Picoshift.ServiceCa.Webhooks
import Picoshift.ServiceCa.Replace
import Picoshift.Gateway.Xds
import Picoshift.Gateway.Clusters
import Picoshift.Gateway.Routing
import Picoshift.Gateway.Sync
import Picoshift.Gateway.LongestPrefix
import Picoshift.Gateway.ReadBack
import Picoshift.Gateway.Tls
import Picoshift.Gateway.Attachment
import Picoshift.Gateway.Ports
import Picoshift.Gateway.LuaFilter
import Picoshift.Gateway.Listener
import Picoshift.Gateway.Controllers
import Picoshift.Gateway.Currency
import Picoshift.Route.Admission
import Picoshift.ImageStream.Reconcile
import Picoshift.JobSet.Reconcile
import Picoshift.JobSet.Terminal
import Picoshift.JobSet.Names
import Picoshift.JobSet.Converge
import Picoshift.JobSet.Idempotent
import Picoshift.LoadBalancer.Controller
import Picoshift.LoadBalancer.Addresses
import Picoshift.PodMutate.Ranges
import Picoshift.PodMutate.Scc
import Picoshift.Project.Controller
import Picoshift.Project.Mirror
import Picoshift.Cli.User
import Picoshift.Cli.Credentials
import Picoshift.Cli.Concurrent
import Picoshift.Cli.HereDoc
import Picoshift.Lib.Search
import Picoshift.Proxy.Fallback
import Picoshift.Proxy.ResponseHead
import Picoshift.Proxy.Refusal
import Picoshift.Lib.Uri
import Picoshift.Proxy.Unwrap
import Picoshift.PodMutate.FsGroup
import Picoshift.OAuth.LoginPage
import Picoshift.Lib.Der
import Picoshift.OAuth.JwtKeys
import Picoshift.OAuth.ExternalJwks
import Picoshift.OAuth.Discovery
import Picoshift.OAuth.Byoidc
import Picoshift.OAuth.ByoidcLogin
import Picoshift.Lib.Clap
import Picoshift.Lib.GoText
import Picoshift.Cli.AuthMode
import Picoshift.Cli.Exec
import Picoshift.Cli.Olm
import Picoshift.Cli.Create
import Picoshift.Cli.Logins
