import ArchetypeProxy.Acme.CachePair
import ArchetypeProxy.Acme.OrderRecords
import ArchetypeProxy.Acme.Provenance
import ArchetypeProxy.Acme.Startup
import ArchetypeProxy.Acme.Teardown
import ArchetypeProxy.Acme.Validation
import ArchetypeProxy.Acme.ZoneCache
import ArchetypeProxy.Boot
import ArchetypeProxy.Configuration.Dump
import ArchetypeProxy.Configuration.Load
import ArchetypeProxy.Configuration.TpmRoundTrip
import ArchetypeProxy.Configuration.Verifier
import ArchetypeProxy.Discovery.Convergence
import ArchetypeProxy.Discovery.Labels
import ArchetypeProxy.Discovery.OptIn
import ArchetypeProxy.Discovery.Relist
import ArchetypeProxy.EnvelopeCap
import ArchetypeProxy.Exchange
import ArchetypeProxy.LegacyUpstream
import ArchetypeProxy.ResponseStream
import ArchetypeProxy.RouteConfinement
import ArchetypeProxy.RouteSelection
import ArchetypeProxy.Scrape
import ArchetypeProxy.Serving
import ArchetypeProxy.TicketNonce
import ArchetypeProxy.UpstreamParts
import ArchetypeProxy.WsCap
import ArchetypeProxy.WsNonces
import ArchetypeProxy.WsPump
import ArchetypeProxy.WsRelay
import ArchetypeProxy.WsReplay
import ArchetypeProxy.WsSteering
