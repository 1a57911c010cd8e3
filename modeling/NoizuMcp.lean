import NoizuMcp.Acl.Scopes
import NoizuMcp.Auth.Assertion
import NoizuMcp.Auth.ConsentRuns
import NoizuMcp.Auth.FamilyLifetime
import NoizuMcp.Auth.Revocation
import NoizuMcp.Auth.WwwAuthenticate
import NoizuMcp.Engine.FederatedScan
import NoizuMcp.Engine.Reconnects
import NoizuMcp.Fuse.Client
import NoizuMcp.Pg.CatalogCache
import NoizuMcp.Pg.Client
import NoizuMcp.Pg.ScanCursors
import NoizuMcp.Pg.UpstreamSlices
import NoizuMcp.Protocol.Inbound
import NoizuMcp.Protocol.Outbound
import NoizuMcp.Server.CursorWalks
import NoizuMcp.Server.ToolRows
import NoizuMcp.Sync.Deliveries
import NoizuMcp.Sync.ExpiredCursors
import NoizuMcp.Sync.Isolation
import NoizuMcp.Toolset.MemoRuns
import NoizuMcp.Toolset.MergeAlgebra
import NoizuMcp.Toolset.Subjects
import NoizuMcp.Transport.EventStore
import NoizuMcp.Transport.GetStream
import NoizuMcp.Transport.PostStream
import NoizuMcp.Vfs.Tree
import NoizuMcp.Vfs.Visibility
