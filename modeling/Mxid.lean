import Mxid.Access.Lemmas.Grant
import Mxid.Access.Lemmas.Permanent
import Mxid.App.Lemmas.Keys
import Mxid.App.Lemmas.Secret
import Mxid.Audit.Lemmas.Capture
import Mxid.Audit.Lemmas.ExactlyOnce
import Mxid.Audit.Lemmas.ExportEntries
import Mxid.Audit.Lemmas.Files
import Mxid.Audit.Lemmas.Overlap
import Mxid.Audit.Lemmas.Project
import Mxid.Authn.Lemmas.Guessing
import Mxid.Authn.Lemmas.Mfa
import Mxid.Authz.Lemmas.Casbin
import Mxid.Authz.Lemmas.Fleet
import Mxid.Authz.Lemmas.Frame
import Mxid.Authz.Lemmas.Serialized
import Mxid.Authz.Lemmas.TenantContext
import Mxid.Crypto.Identifier
import Mxid.Group.Lemmas.Dynamic
import Mxid.Group.Lemmas.OrgSync
import Mxid.Group.Lemmas.Roster
import Mxid.License.Lemmas.License
import Mxid.Middleware.RateLimit
import Mxid.Oidckey.Lemmas.Operations
import Mxid.Oidcop.Lemmas.Replay
import Mxid.Oidcop.Lemmas.Rotation
import Mxid.Org.Lemmas.Concurrent
import Mxid.Org.Lemmas.Subtree
import Mxid.Org.Lemmas.Tenant
import Mxid.Org.Lemmas.Tree
import Mxid.Portal.Lemmas.SmsCodes
import Mxid.Sessions.Lemmas.Dead
import Mxid.Sessions.Lemmas.Everywhere
import Mxid.Sessions.Lemmas.Fields
import Mxid.Snowflake.Lemmas.Generator
import Mxid.Sso.Lemmas.AccessGate
import Mxid.Sso.Lemmas.AppList
import Mxid.Sso.Lemmas.CasLogout
import Mxid.Sso.Lemmas.Chain
import Mxid.Sso.Lemmas.Logout
import Mxid.Sso.Lemmas.Redirect
import Mxid.Sso.Lemmas.Tickets
import Mxid.User.Lemmas.BackupCodeCalls
import Mxid.User.Lemmas.Owner
import Mxid.User.Lemmas.Privileged
import Mxid.User.Lemmas.Providers
import Mxid.User.Lemmas.Revocation
import Mxid.User.Lemmas.SuperAdmin
import Mxid.User.Lemmas.Totp
import Mxid.User.Lemmas.Verified
